import Jukebox.Proofs.Config.Volume
import Jukebox.Proofs.Text

/-!
# Corrected settings

Each correction settles a field of its own and leaves the others as they are (`Config.validate_eq`).
So corrected settings need no further correction, with one exception: slashes are dropped from the
end of an address after it was found to say something, and blank characters may be all that is left
(`Config.validate_settles_iff`).  Every track starts at the corrected default, which already lies in
its range (`Config.starts_at_default`).
-/

namespace Jukebox

/-- A text of blank characters. -/
def IsBlankText (text : String) : Prop := ∀ c ∈ text.toList, Text.isBlank c = true

namespace Config

variable {c : Config} {address : String}

/-! ## Slashes at the end -/

/-- Slashes at the end of a text of blank characters. -/
def Vanishes (address : String) : Prop :=
  ∃ blanks n, address.toList = blanks ++ List.replicate (n + 1) '/' ∧
    ∀ c ∈ blanks, Text.isBlank c = true

theorem toList_withoutFinalSlashes (address : String) :
    (withoutFinalSlashes address).toList = address.toList.rdropWhile (· == '/') :=
  String.toList_ofList

theorem withoutFinalSlashes_eq_self (h : address.toList.getLast? ≠ some '/') :
    withoutFinalSlashes address = address := by
  apply String.toList_inj.mp
  rw [toList_withoutFinalSlashes, List.rdropWhile_eq_self_iff]
  intro hne hslash
  exact h (by rw [List.getLast?_eq_some_getLast hne, eq_of_beq hslash])

theorem getLast?_withoutFinalSlashes (address : String) :
    (withoutFinalSlashes address).toList.getLast? ≠ some '/' := by
  intro hlast
  obtain ⟨hne, heq⟩ := List.mem_getLast?_eq_getLast (Option.mem_def.mpr hlast)
  rw [toList_withoutFinalSlashes] at hne
  apply List.rdropWhile_last_not (· == '/') address.toList hne
  simp only [toList_withoutFinalSlashes] at heq
  rw [← heq]
  rfl

/-- An address that says something is blank without the slashes at its end only if there is nothing
but slashes behind its blank characters. -/
theorem isBlankText_withoutFinalSlashes_iff (h : ¬ IsBlankText address) :
    IsBlankText (withoutFinalSlashes address) ↔ Vanishes address := by
  unfold IsBlankText
  rw [toList_withoutFinalSlashes]
  constructor
  · intro hblank
    have hall : ∀ d ∈ address.toList.rtakeWhile (· == '/'), d = '/' := by
      intro d hd
      have hslash := List.mem_rtakeWhile_imp hd
      exact eq_of_beq hslash
    have hslashes := List.eq_replicate_of_mem hall
    have hsplit := List.rdropWhile_append_rtakeWhile (p := (· == '/')) (l := address.toList)
    rw [hslashes] at hsplit
    cases hlength : (address.toList.rtakeWhile (· == '/')).length with
    | zero =>
      rw [hlength, List.replicate_zero, List.append_nil] at hsplit
      rw [hsplit] at hblank
      exact absurd hblank h
    | succ n =>
      rw [hlength] at hsplit
      exact ⟨_, n, hsplit.symm, hblank⟩
  · rintro ⟨blanks, n, hsplit, hblanks⟩
    have hslashes : ∀ d ∈ List.replicate (n + 1) '/', (d == '/') = true := by
      intro d hd
      rw [List.eq_of_mem_replicate hd]
      rfl
    rw [hsplit, Text.rdropWhile_append_of_forall hslashes]
    intro d hd
    exact hblanks d ((List.rdropWhile_prefix _ _).subset hd)

theorem Vanishes.not_isBlankText (h : Vanishes address) : ¬ IsBlankText address := by
  obtain ⟨blanks, n, hsplit, -⟩ := h
  intro hblank
  have hslash := hblank '/' (by simp [hsplit])
  revert hslash
  decide

theorem not_isBlankText_standard : ¬ IsBlankText standard.apiBaseUrl := by
  intro hblank
  exact absurd (hblank 'h' (by decide)) (by decide)

theorem getLast?_standard : standard.apiBaseUrl.toList.getLast? ≠ some '/' := by decide

/-! ## The corrections, each by itself -/

theorem correctAddress_of_isBlankText (h : IsBlankText c.apiBaseUrl) :
    c.correctAddress = ({ c with apiBaseUrl := standard.apiBaseUrl },
      ["apiBaseUrl vacío, usando el valor por defecto"]) := by
  have hempty : (Text.trimmed c.apiBaseUrl.toList).isEmpty = true := by
    rw [List.isEmpty_iff, Text.trimmed_eq_nil_iff]
    exact h
  have hstandard : withoutFinalSlashes standard.apiBaseUrl = standard.apiBaseUrl :=
    withoutFinalSlashes_eq_self getLast?_standard
  simp only [correctAddress, hempty, if_true, hstandard]

theorem correctAddress_of_not_isBlankText (h : ¬ IsBlankText c.apiBaseUrl) :
    c.correctAddress = ({ c with apiBaseUrl := withoutFinalSlashes c.apiBaseUrl }, []) := by
  have hempty : (Text.trimmed c.apiBaseUrl.toList).isEmpty = false := by
    rw [List.isEmpty_eq_false_iff, ne_eq, Text.trimmed_eq_nil_iff]
    exact h
  simp only [correctAddress, hempty, Bool.false_eq_true, if_false]

/-- Each correction settles a field of its own. -/
theorem validate_eq (c : Config) :
    c.validate = ({ c with
        apiBaseUrl := c.correctAddress.1.apiBaseUrl
        commandPrefix := c.correctPrefix.1.commandPrefix
        volume := c.volume.validate.1
        header := c.ensureCookie.header },
      c.correctAddress.2 ++ c.correctPrefix.2 ++ c.volume.validate.2) := by
  unfold validate ensureCookie correctPrefix correctAddress correctVolume
  dsimp only
  split <;> split <;> dsimp only <;> split <;> rfl

theorem apiBaseUrl_validate (c : Config) :
    c.validate.1.apiBaseUrl = c.correctAddress.1.apiBaseUrl := by
  rw [validate_eq]

theorem volume_validate (c : Config) : c.validate.1.volume = c.volume.validate.1 := by
  rw [validate_eq]

theorem getLast?_apiBaseUrl_validate (c : Config) :
    c.validate.1.apiBaseUrl.toList.getLast? ≠ some '/' := by
  rw [apiBaseUrl_validate]
  exact getLast?_withoutFinalSlashes _

theorem isBlankText_apiBaseUrl_validate_iff (c : Config) :
    IsBlankText c.validate.1.apiBaseUrl ↔ Vanishes c.apiBaseUrl := by
  rw [apiBaseUrl_validate]
  by_cases hblank : IsBlankText c.apiBaseUrl
  · rw [correctAddress_of_isBlankText hblank]
    exact iff_of_false not_isBlankText_standard fun hvanishes =>
      hvanishes.not_isBlankText hblank
  · rw [correctAddress_of_not_isBlankText hblank]
    exact isBlankText_withoutFinalSlashes_iff hblank

theorem commandPrefix_validate (c : Config) :
    c.validate.1.commandPrefix =
      if c.commandPrefix.isEmpty then standard.commandPrefix else c.commandPrefix := by
  have hlead : c.validate.1.commandPrefix = c.correctPrefix.1.commandPrefix := by rw [validate_eq]
  rw [hlead, correctPrefix]
  split <;> rfl

theorem commandPrefix_validate_ne (c : Config) : c.validate.1.commandPrefix ≠ "" := by
  rw [commandPrefix_validate]
  split
  · decide
  · next hempty => rwa [String.isEmpty_iff] at hempty

theorem has_cookie_validate (c : Config) : c.validate.1.header.has cookieHeader = true := by
  have hheader : c.validate.1.header = c.ensureCookie.header := by rw [validate_eq]
  rw [hheader]
  by_cases hcookie : c.header.has cookieHeader = true
  · rwa [ensureCookie, if_pos hcookie]
  · rw [ensureCookie, if_neg hcookie, Pairs.has, Pairs.lookup_set]
    rfl

/-! ## Correcting a second time -/

/-- Nothing has to be corrected, unless the address is blank. -/
structure InOrder (c : Config) : Prop where
  address : c.apiBaseUrl.toList.getLast? ≠ some '/'
  lead : c.commandPrefix ≠ ""
  volume : c.volume.Usable
  cookie : c.header.has cookieHeader = true

theorem inOrder_validate (c : Config) : c.validate.1.InOrder where
  address := getLast?_apiBaseUrl_validate c
  lead := commandPrefix_validate_ne c
  volume := volume_validate c ▸ Volume.usable_validate c.volume
  cookie := has_cookie_validate c

theorem InOrder.withStandardAddress (h : c.InOrder) :
    { c with apiBaseUrl := standard.apiBaseUrl }.InOrder :=
  ⟨getLast?_standard, h.lead, h.volume, h.cookie⟩

/-- Of settings in order, at most the address is corrected. -/
theorem InOrder.validate_eq (h : c.InOrder) :
    c.validate = ({ c with apiBaseUrl := c.correctAddress.1.apiBaseUrl }, c.correctAddress.2) := by
  have hempty : ¬ c.commandPrefix.isEmpty = true := by
    rw [String.isEmpty_iff]
    exact h.lead
  have hlead : c.correctPrefix = (c, []) := if_neg hempty
  have hcookie : c.ensureCookie = c := if_pos h.cookie
  rw [Config.validate_eq, hlead, hcookie, Volume.validate_of_usable h.volume, List.append_nil,
    List.append_nil]

theorem InOrder.validate_of_not_isBlankText (h : c.InOrder)
    (hblank : ¬ IsBlankText c.apiBaseUrl) : c.validate = (c, []) := by
  rw [h.validate_eq, correctAddress_of_not_isBlankText hblank,
    withoutFinalSlashes_eq_self h.address]

theorem InOrder.validate_of_isBlankText (h : c.InOrder) (hblank : IsBlankText c.apiBaseUrl) :
    c.validate = ({ c with apiBaseUrl := standard.apiBaseUrl },
      ["apiBaseUrl vacío, usando el valor por defecto"]) := by
  rw [h.validate_eq, correctAddress_of_isBlankText hblank]

/-- Corrected settings need no second correction, unless nothing but slashes stood behind the blank
characters of their address.  Then the address is blank once corrected, and the second correction
puts the standard one in its place and changes nothing else.  A third one is never needed; and the
prefix, the cookie and the end of the address are as they should be after the first. -/
theorem validate_settles_iff (c : Config) :
    let v := c.validate.1
    (v.validate = (v, []) ↔ ¬ Vanishes c.apiBaseUrl) ∧
      (IsBlankText v.apiBaseUrl ↔ Vanishes c.apiBaseUrl) ∧
      (Vanishes c.apiBaseUrl → v.validate = ({ v with apiBaseUrl := standard.apiBaseUrl },
        ["apiBaseUrl vacío, usando el valor por defecto"])) ∧
      v.validate.1.validate = (v.validate.1, []) ∧
      v.apiBaseUrl.toList.getLast? ≠ some '/' ∧ v.commandPrefix ≠ "" ∧
      v.header.has cookieHeader = true := by
  intro v
  have hv : v.InOrder := inOrder_validate c
  have hblank : IsBlankText v.apiBaseUrl ↔ Vanishes c.apiBaseUrl :=
    isBlankText_apiBaseUrl_validate_iff c
  refine ⟨?_, hblank, ?_, ?_, hv.address, hv.lead, hv.cookie⟩
  · rw [← hblank]
    constructor
    · intro hsettled hvanished
      rw [hv.validate_of_isBlankText hvanished] at hsettled
      exact absurd (congrArg Prod.snd hsettled) (List.cons_ne_nil _ _)
    · exact hv.validate_of_not_isBlankText
  · intro hvanishes
    exact hv.validate_of_isBlankText (hblank.mpr hvanishes)
  · by_cases hvanished : IsBlankText v.apiBaseUrl
    · rw [hv.validate_of_isBlankText hvanished]
      exact hv.withStandardAddress.validate_of_not_isBlankText not_isBlankText_standard
    · rw [hv.validate_of_not_isBlankText hvanished]
      exact hv.validate_of_not_isBlankText hvanished

/-- An address of one slash is lost in the first correction, and replaced in the second. -/
theorem validate_settles_iff_of_slash :
    let v := { standard with apiBaseUrl := "/" }.validate.1
    v.apiBaseUrl = "" ∧ v.validate ≠ (v, []) ∧ v.validate.1 = standard := by
  intro v
  have hvanishes : Vanishes "/" := ⟨[], 0, by decide, List.forall_mem_nil _⟩
  obtain ⟨hsettled, -, hsecond, -⟩ := validate_settles_iff { standard with apiBaseUrl := "/" }
  refine ⟨by decide, fun h => hsettled.mp h hvanishes, ?_⟩
  rw [hsecond hvanishes]
  decide

/-- Corrected settings start every track at their default loudness.  The three numbers of the
loudness are finite and in order between zero and two; they are those of the settings before if
these were so already; and where a default is moved into a range, that range is one. -/
theorem starts_at_default (c : Config) :
    let v := c.validate.1.volume
    v.Usable ∧ v.start = v.default ∧ (c.volume.Usable → v = c.volume) ∧
      v = c.volume.beforeMoving.correctOutside.1 ∧
      c.volume.beforeMoving.min.le c.volume.beforeMoving.max = true := by
  intro v
  have hv : v = c.volume.validate.1 := volume_validate c
  have husable : v.Usable := hv ▸ Volume.usable_validate c.volume
  obtain ⟨-, -, -, -, horder⟩ :=
    Volume.hasValidRange_iff.mp (Volume.hasValidRange_beforeMoving c.volume)
  refine ⟨husable, Volume.start_of_usable husable, ?_, hv, horder⟩
  intro h
  rw [hv, Volume.validate_of_usable h]

end Config

end Jukebox
