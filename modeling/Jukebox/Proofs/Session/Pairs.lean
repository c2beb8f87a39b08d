import Mathlib.Data.List.Nodup
import Jukebox.Session.Pairs
import Jukebox.Proofs.Entries

/-!
# One row of values over another

Giving names values one after the other leaves the names that were there in their places and puts
each new one at the end; of several values for a name the last one counts.  A row in which no name
occurs twice is told by its names and their values, so that laying such rows over each other is a
matter of what stands where (`Pairs.override_assoc`).
-/

namespace Jukebox

namespace Pairs

variable {pairs fresh last other : Pairs} {name value : String}

/-- The names, in order. -/
def names (pairs : Pairs) : List String := pairs.map Prod.fst

/-! ## Rows without a name that occurs twice -/

@[simp] theorem names_cons (pair : String × String) (pairs : Pairs) :
    names (pair :: pairs) = pair.1 :: names pairs :=
  rfl

theorem mem_names : name ∈ pairs.names ↔ ∃ value, (name, value) ∈ pairs := by
  simp [names]

theorem lookup_eq_none_iff : pairs.lookup name = none ↔ name ∉ pairs.names := by
  rw [List.lookup_eq_none_iff, mem_names]
  constructor
  · rintro h ⟨value, hmem⟩
    simpa using h _ hmem
  · rintro h ⟨first, value⟩ hmem
    rw [bne_iff_ne]
    rintro rfl
    exact h ⟨value, hmem⟩

theorem lookup_eq_some_iff (h : pairs.names.Nodup) :
    pairs.lookup name = some value ↔ (name, value) ∈ pairs := by
  induction pairs with
  | nil => simp
  | cons pair pairs ih =>
    obtain ⟨first, old⟩ := pair
    obtain ⟨hfirst, hrest⟩ := List.nodup_cons.mp h
    rw [Entries.lookup_cons_eq, List.mem_cons, Prod.mk.injEq]
    split
    · next heq =>
      subst heq
      have hnot : (name, value) ∉ pairs := fun hmem => hfirst (mem_names.mpr ⟨value, hmem⟩)
      rw [or_iff_left hnot, and_iff_right rfl, Option.some.injEq, eq_comm]
    · next hne => rw [ih hrest, or_iff_right fun heq => hne heq.1]

theorem lookup_reverse (h : pairs.names.Nodup) (name : String) :
    pairs.reverse.lookup name = pairs.lookup name := by
  have hreverse : (names pairs.reverse).Nodup := by
    rw [names, List.map_reverse, List.nodup_reverse]
    exact h
  ext value
  rw [lookup_eq_some_iff hreverse, lookup_eq_some_iff h, List.mem_reverse]

theorem eq_map_names (h : pairs.names.Nodup) :
    pairs = pairs.names.map fun name => (name, pairs.value name) := by
  have hself : ∀ pair ∈ pairs, (pair.1, pairs.value pair.1) = pair := by
    intro pair hpair
    rw [Pairs.value, (lookup_eq_some_iff h).mpr hpair, Option.getD_some]
  have hmap : (pairs.map fun pair => (pair.1, pairs.value pair.1)) = pairs.map id :=
    List.map_congr_left hself
  rw [names, List.map_map]
  exact (hmap.trans (List.map_id pairs)).symm

/-- Such a row is told by its names and their values. -/
theorem ext_of_names (h : pairs.names.Nodup) (hnames : pairs.names = other.names)
    (hlookup : ∀ name, pairs.lookup name = other.lookup name) : pairs = other := by
  calc pairs
      = pairs.names.map fun name => (name, pairs.value name) := eq_map_names h
    _ = other.names.map fun name => (name, other.value name) := by
        simp only [hnames, Pairs.value, hlookup]
    _ = other := (eq_map_names (hnames ▸ h)).symm

/-! ## What stands where -/

theorem lookup_set_of_ne (pairs : Pairs) {name other : String} (value : String)
    (h : other ≠ name) : (pairs.set name value).lookup other = pairs.lookup other := by
  induction pairs with
  | nil => simp [Pairs.set, List.lookup_cons, beq_false_of_ne h]
  | cons pair rest ih =>
    obtain ⟨key, old⟩ := pair
    unfold Pairs.set
    split
    · next hkey =>
      subst hkey
      simp [List.lookup_cons, beq_false_of_ne h]
    · simp [List.lookup_cons, ih]

theorem names_set (pairs : Pairs) (name value : String) :
    (pairs.set name value).names =
      if name ∈ pairs.names then pairs.names else pairs.names ++ [name] := by
  induction pairs with
  | nil => rfl
  | cons pair pairs ih =>
    obtain ⟨first, old⟩ := pair
    unfold set
    split
    · next heq =>
      have hmem : name ∈ names ((first, old) :: pairs) := heq ▸ List.mem_cons_self
      rw [if_pos hmem]
      rfl
    · next hne =>
      have hmem : name ∈ first :: names pairs ↔ name ∈ names pairs := by
        rw [List.mem_cons, or_iff_right (Ne.symm hne)]
      simp only [names_cons, ih, hmem]
      split <;> rfl

theorem mem_of_mem_set {pair : String × String} (h : pair ∈ pairs.set name value) :
    pair ∈ pairs ∨ pair = (name, value) := by
  induction pairs with
  | nil => exact .inr (List.mem_singleton.mp h)
  | cons first pairs ih =>
    obtain ⟨first, old⟩ := first
    unfold set at h
    split at h
    · next heq =>
      rcases List.mem_cons.mp h with rfl | h
      · exact .inr (by rw [heq])
      · exact .inl (List.mem_cons_of_mem _ h)
    · rcases List.mem_cons.mp h with rfl | h
      · exact .inl List.mem_cons_self
      · exact (ih h).imp_left (List.mem_cons_of_mem _)

theorem override_cons (pairs : Pairs) (pair : String × String) (fresh : Pairs) :
    pairs.override (pair :: fresh) = (pairs.set pair.1 pair.2).override fresh :=
  rfl

theorem mem_of_mem_override {pair : String × String} (h : pair ∈ pairs.override fresh) :
    pair ∈ pairs ∨ pair ∈ fresh := by
  induction fresh generalizing pairs with
  | nil => exact .inl h
  | cons first fresh ih =>
    rcases ih h with hset | hfresh
    · rcases mem_of_mem_set hset with hmem | rfl
      · exact .inl hmem
      · exact .inr List.mem_cons_self
    · exact .inr (List.mem_cons_of_mem _ hfresh)

/-- Of several values for a name the last one counts. -/
theorem lookup_override (pairs fresh : Pairs) (name : String) :
    (pairs.override fresh).lookup name =
      (fresh.reverse.lookup name).or (pairs.lookup name) := by
  induction fresh generalizing pairs with
  | nil => rfl
  | cons pair fresh ih =>
    have hset : (pairs.set pair.1 pair.2).lookup name =
        (([pair] : Pairs).lookup name).or (pairs.lookup name) := by
      rw [Entries.lookup_cons_eq]
      by_cases h : name = pair.1
      · rw [if_pos h, h, lookup_set, Option.some_or]
      · rw [if_neg h, lookup_set_of_ne _ _ h, List.lookup_nil, Option.none_or]
    rw [override_cons, ih, hset, List.reverse_cons, List.lookup_append, Option.or_assoc]

/-- Each new name comes to the end when it is first given a value. -/
theorem names_override (pairs fresh : Pairs) :
    (pairs.override fresh).names =
      pairs.names ++ (fresh.names.filter (· ∉ pairs.names)).eraseDups := by
  induction fresh generalizing pairs with
  | nil => simp [override, names]
  | cons pair fresh ih =>
    rw [override_cons, ih, names_set, names_cons]
    by_cases h : pair.1 ∈ pairs.names
    · rw [if_pos h, List.filter_cons_of_neg (by simpa using h)]
    · have hlater : (names fresh).filter (· ∉ pairs.names ++ [pair.1]) =
          ((names fresh).filter (· ∉ pairs.names)).filter fun name => !name == pair.1 := by
        rw [List.filter_filter]
        apply List.filter_congr
        intro name _
        by_cases heq : name = pair.1
        · simp [heq]
        · simp [heq]
      rw [if_neg h, List.filter_cons_of_pos (by simpa using h), List.eraseDups_cons, hlater,
        List.append_assoc, List.singleton_append]

theorem nil_override_eq_nil_iff : override [] fresh = [] ↔ fresh = [] := by
  cases fresh with
  | nil => exact Iff.rfl
  | cons pair fresh =>
    have hmem : pair.1 ∈ (override [] (pair :: fresh)).names := by
      rw [names_override, List.mem_append, List.mem_eraseDups]
      simp [names]
    refine iff_of_false (fun h => ?_) (List.cons_ne_nil _ _)
    rw [h] at hmem
    cases hmem

theorem nodup_override (h : pairs.names.Nodup) : (pairs.override fresh).names.Nodup := by
  induction fresh generalizing pairs with
  | nil => exact h
  | cons pair fresh ih =>
    apply ih
    rw [names_set]
    split
    · exact h
    · next hnot =>
      rw [← List.concat_eq_append]
      exact h.concat hnot

/-! ## Rows over rows -/

theorem eraseDups_of_nodup {names : List String} (h : names.Nodup) : names.eraseDups = names := by
  induction names with
  | nil => rfl
  | cons name names ih =>
    obtain ⟨hnot, hrest⟩ := List.nodup_cons.mp h
    have hfilter : (names.filter fun other => !other == name) = names := by
      rw [List.filter_eq_self]
      intro other hother
      have hne : other ≠ name := fun heq => hnot (heq ▸ hother)
      simpa using hne
    rw [List.eraseDups_cons, hfilter, ih hrest]

theorem names_override_of_nodup (h : fresh.names.Nodup) :
    (pairs.override fresh).names = pairs.names ++ fresh.names.filter (· ∉ pairs.names) := by
  rw [names_override, eraseDups_of_nodup (h.filter _)]

theorem lookup_override_of_nodup (h : fresh.names.Nodup) (name : String) :
    (pairs.override fresh).lookup name = (fresh.lookup name).or (pairs.lookup name) := by
  rw [lookup_override, lookup_reverse h]

/-- A name that has a value in the row on top takes it, and the names that stand only there follow
behind. -/
theorem override_eq (hpairs : pairs.names.Nodup) (hfresh : fresh.names.Nodup) :
    pairs.override fresh =
      (pairs.map fun pair => (pair.1, (fresh.lookup pair.1).getD pair.2)) ++
        fresh.filter (·.1 ∉ pairs.names) := by
  have hvalue : ∀ name, (pairs.override fresh).value name =
      ((fresh.lookup name).or (pairs.lookup name)).getD "" := by
    intro name
    rw [Pairs.value, lookup_override_of_nodup hfresh]
  have hold : ∀ pair ∈ pairs, (pair.1, (pairs.override fresh).value pair.1) =
      (pair.1, (fresh.lookup pair.1).getD pair.2) := by
    intro pair hpair
    rw [hvalue, (lookup_eq_some_iff hpairs).mpr hpair]
    cases fresh.lookup pair.1 <;> rfl
  have hnew : ∀ pair ∈ fresh.filter (·.1 ∉ pairs.names),
      (pair.1, (pairs.override fresh).value pair.1) = id pair := by
    intro pair hpair
    rw [hvalue, (lookup_eq_some_iff hfresh).mpr (List.mem_filter.mp hpair).1]
    rfl
  calc pairs.override fresh
      = (pairs.names ++ fresh.names.filter (· ∉ pairs.names)).map
          fun name => (name, (pairs.override fresh).value name) := by
        rw [← names_override_of_nodup hfresh]
        exact eq_map_names (nodup_override hpairs)
    _ = (pairs.map fun pair => (pair.1, (pairs.override fresh).value pair.1)) ++
          (fresh.filter (·.1 ∉ pairs.names)).map
            fun pair => (pair.1, (pairs.override fresh).value pair.1) := by
        rw [List.map_append, names, List.map_map, names, List.filter_map, List.map_map]
        rfl
    _ = (pairs.map fun pair => (pair.1, (fresh.lookup pair.1).getD pair.2)) ++
          fresh.filter (·.1 ∉ pairs.names) := by
        rw [List.map_congr_left hold, List.map_congr_left hnew, List.map_id]

theorem override_nil (pairs : Pairs) : pairs.override [] = pairs := rfl

theorem nil_override (h : fresh.names.Nodup) : override [] fresh = fresh := by
  have hnil : (names []).Nodup := List.nodup_nil
  apply ext_of_names (nodup_override hnil)
  · rw [names_override_of_nodup h]
    simp [names]
  · intro name
    rw [lookup_override_of_nodup h, List.lookup_nil, Option.or_none]

/-- Laying a row over a row that was laid over a third one is laying over that one what comes of
the two. -/
theorem override_assoc (hpairs : pairs.names.Nodup) (hfresh : fresh.names.Nodup)
    (hlast : last.names.Nodup) :
    (pairs.override fresh).override last = pairs.override (fresh.override last) := by
  have hboth : (fresh.override last).names.Nodup := nodup_override hfresh
  apply ext_of_names (nodup_override (nodup_override hpairs))
  · rw [names_override_of_nodup hlast, names_override_of_nodup hfresh,
      names_override_of_nodup hboth, names_override_of_nodup hlast, List.filter_append,
      List.filter_filter, List.append_assoc]
    congr 2
    apply List.filter_congr
    intro name _
    by_cases h : name ∈ pairs.names
    · simp [h]
    · simp [h]
  · intro name
    rw [lookup_override_of_nodup hlast, lookup_override_of_nodup hfresh,
      lookup_override_of_nodup hboth, lookup_override_of_nodup hlast, Option.or_assoc]

theorem override_self (h : pairs.names.Nodup) : pairs.override pairs = pairs := by
  apply ext_of_names (nodup_override h)
  · rw [names_override_of_nodup h]
    simp
  · intro name
    rw [lookup_override_of_nodup h, Option.or_self]

end Pairs

end Jukebox
