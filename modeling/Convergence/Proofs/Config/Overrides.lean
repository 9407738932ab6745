import Convergence.Config.Controller
import Convergence.Proofs.Text.Blank
import Convergence.Proofs.Text.Unsigned
/-!
# Overrides by the environment

A variable gives a number of seconds if its value, but for white space at the ends, is the numeral
of a number below 2 ^ 64 (`Gives`).  A configuration is overridden just if every variable that is
set gives seconds, and then the durations that are overridden are just as many seconds long.  If
not, the first variable at fault is reported with its value as it is (`withOverrides_grammar`).
-/

namespace Convergence.ControllerConfig

/-- The variables that override durations, in the order in which they are looked at. -/
def overrideVariables : List String := [recheckVariable, shutdownVariable]

/-- The value of a variable gives so many seconds. -/
def Gives (raw : String) (secs : UInt64) : Prop :=
  ∃ core, Text.Trimmed raw.toList core ∧ Unsigned.Writes core secs.toNat

/-- The variable is not set, or it gives seconds. -/
def Readable (lookup : String → Option String) (setting : String) : Prop :=
  ∀ raw ∈ lookup setting, ∃ secs, Gives raw secs

/-- A duration before and after it is overridden by the value of a variable, if there is one. -/
def OverriddenBy (before after : Duration) : Option String → Prop
  | none => after = before
  | some raw => ∃ secs, Gives raw secs ∧ after = .ofSeconds secs

/-- The first variable whose value does not give seconds. -/
structure FirstAtFault (lookup : String → Option String) (setting raw : String) : Prop where
  earlier : ∃ earlier later, overrideVariables = earlier ++ setting :: later ∧
    ∀ v ∈ earlier, Readable lookup v
  value : lookup setting = some raw
  fault : ∀ secs, ¬ Gives raw secs

variable {c c' : ControllerConfig} {lookup : String → Option String} {setting raw : String}

/-! ## One variable -/

lemma gives_iff {secs : UInt64} :
    Gives raw secs ↔ Unsigned.read (Text.trim raw.toList) = .ok secs.toNat := by
  rw [Unsigned.read_eq_ok_iff, and_iff_left secs.toNat_lt_size]
  constructor
  · rintro ⟨core, hcore, hwrites⟩
    rwa [hcore.trim_eq]
  · exact fun hwrites => ⟨_, Text.trimmed_trim _, hwrites⟩

/-- What is wrong with a value, if it does not give seconds. -/
lemma forall_not_gives_iff : (∀ secs, ¬ Gives raw secs) ↔
    ∃ fault, Unsigned.read (Text.trim raw.toList) = .error fault := by
  cases h : Unsigned.read (Text.trim raw.toList) with
  | error fault => simp [gives_iff, h]
  | ok n =>
    have hlt : n < UInt64.size := (Unsigned.read_eq_ok_iff.1 h).2
    have hgives : Gives raw (.ofNat n) := by
      rw [gives_iff, h, UInt64.toNat_ofNat_of_lt' hlt]
    exact ⟨fun hno => absurd hgives (hno _), nofun⟩

lemma override?_of_value {secs : UInt64} (hraw : lookup setting = some raw)
    (h : Gives raw secs) : override? lookup setting = .ok (some (.ofSeconds secs)) := by
  simp only [override?, hraw, gives_iff.1 h]
  rw [UInt64.ofNat_toNat]

lemma override?_of_fault {fault : Unsigned.Fault} (hraw : lookup setting = some raw)
    (h : Unsigned.read (Text.trim raw.toList) = .error fault) :
    override? lookup setting =
      .error (.invalidConfig (setting ++ "=" ++ raw ++ ": " ++ fault.message)) := by
  simp only [override?, hraw, h]

/-- How a variable is read: it is not set, gives seconds, or is at fault. -/
inductive Reads (lookup : String → Option String) (setting : String) :
    Except ReconcileError (Option Duration) → Prop where
  | unset (hraw : lookup setting = none) : Reads lookup setting (.ok none)
  | value {raw : String} {secs : UInt64} (hraw : lookup setting = some raw)
      (gives : Gives raw secs) : Reads lookup setting (.ok (some (.ofSeconds secs)))
  | fault {raw : String} {core : List Char} {fault : Unsigned.Fault}
      (hraw : lookup setting = some raw) (hno : ∀ secs, ¬ Gives raw secs)
      (trimmed : Text.Trimmed raw.toList core) (spoils : Unsigned.Spoils fault core) :
      Reads lookup setting
        (.error (.invalidConfig (setting ++ "=" ++ raw ++ ": " ++ fault.message)))

lemma reads_override? (lookup : String → Option String) (setting : String) :
    Reads lookup setting (override? lookup setting) := by
  cases hraw : lookup setting with
  | none =>
    have hnone : override? lookup setting = .ok none := by simp only [override?, hraw]
    rw [hnone]
    exact .unset hraw
  | some raw =>
    by_cases hgives : ∃ secs, Gives raw secs
    · obtain ⟨secs, hsecs⟩ := hgives
      rw [override?_of_value hraw hsecs]
      exact .value hraw hsecs
    · have hno : ∀ secs, ¬ Gives raw secs := not_exists.1 hgives
      obtain ⟨fault, hfault⟩ := forall_not_gives_iff.1 hno
      rw [override?_of_fault hraw hfault]
      exact .fault hraw hno (Text.trimmed_trim _) (Unsigned.read_eq_error_iff.1 hfault)

namespace Reads

variable {o : Option Duration} {e : ReconcileError}

lemma readable (h : Reads lookup setting (.ok o)) : Readable lookup setting := by
  intro raw' hraw'
  cases h with
  | unset hraw => cases hraw.symm.trans hraw'
  | @value raw secs hraw gives =>
    cases hraw.symm.trans hraw'
    exact ⟨secs, gives⟩

/-- What is read in place of a duration is what the duration is overridden by. -/
lemma overriddenBy_iff (h : Reads lookup setting (.ok o)) {before after : Duration} :
    OverriddenBy before after (lookup setting) ↔ after = o.getD before := by
  cases h with
  | unset hraw =>
    rw [hraw]
    exact Iff.rfl
  | @value raw secs hraw gives =>
    rw [hraw]
    constructor
    · rintro ⟨secs', gives', rfl⟩
      have hsame : secs.toNat = secs'.toNat :=
        Except.ok.inj ((gives_iff.1 gives).symm.trans (gives_iff.1 gives'))
      rw [UInt64.toNat_inj.1 hsame, Option.getD_some]
    · rintro rfl
      exact ⟨secs, gives, rfl⟩

lemma not_readable (h : Reads lookup setting (.error e)) : ¬ Readable lookup setting := by
  intro hreadable
  cases h with
  | fault hraw hno trimmed spoils =>
    obtain ⟨secs, gives⟩ := hreadable _ hraw
    exact hno secs gives

end Reads

/-! ## Both variables -/

/-- How a configuration is overridden: each variable that is set gives seconds, and the two
durations are those, or what they were; or there is a first variable at fault. -/
inductive Overrides (c : ControllerConfig) (lookup : String → Option String) :
    Except ReconcileError ControllerConfig → Prop where
  | overridden {recheck shutdown : Duration} (readable : ∀ v ∈ overrideVariables, Readable lookup v)
      (hrecheck : OverriddenBy c.recheckInterval recheck (lookup recheckVariable))
      (hshutdown : OverriddenBy c.shutdownTimeout shutdown (lookup shutdownVariable)) :
      Overrides c lookup
        (.ok { c with recheckInterval := recheck, shutdownTimeout := shutdown })
  | refused {setting raw : String} {core : List Char} {fault : Unsigned.Fault}
      (first : FirstAtFault lookup setting raw) (trimmed : Text.Trimmed raw.toList core)
      (spoils : Unsigned.Spoils fault core) :
      Overrides c lookup
        (.error (.invalidConfig (setting ++ "=" ++ raw ++ ": " ++ fault.message)))

lemma exists_override? (h : Readable lookup setting) :
    ∃ o, override? lookup setting = .ok o ∧ Reads lookup setting (.ok o) := by
  have hreads := reads_override? lookup setting
  cases hv : override? lookup setting with
  | ok o => exact ⟨o, rfl, hv ▸ hreads⟩
  | error e =>
    rw [hv] at hreads
    exact absurd h hreads.not_readable

/-- The first of the two variables is at fault, or the second one and not the first. -/
lemma firstAtFault_cases (h : FirstAtFault lookup setting raw) :
    setting = recheckVariable ∨ setting = shutdownVariable ∧ Readable lookup recheckVariable := by
  obtain ⟨earlier, later, hsplit, hreadable⟩ := h.earlier
  match earlier, hsplit with
  | [], hsplit => exact Or.inl (List.cons.inj hsplit).1.symm
  | [v], hsplit =>
    obtain ⟨rfl, hrest⟩ := List.cons.inj hsplit
    exact Or.inr ⟨(List.cons.inj hrest).1.symm, hreadable _ (by simp)⟩
  | v :: v' :: rest, hsplit =>
    have hlength := congrArg List.length hsplit
    simp only [overrideVariables, List.length_append, List.length_cons, List.length_nil] at hlength
    omega

lemma overrides_withOverrides (c : ControllerConfig) (lookup : String → Option String) :
    Overrides c lookup (c.withOverrides lookup) := by
  have hrecheck := reads_override? lookup recheckVariable
  have hshutdown := reads_override? lookup shutdownVariable
  rw [withOverrides]
  cases hv : override? lookup recheckVariable with
  | error e =>
    rw [hv] at hrecheck
    cases hrecheck with
    | fault hraw hno trimmed spoils =>
      exact .refused ⟨⟨[], [shutdownVariable], rfl, by simp⟩, hraw, hno⟩ trimmed spoils
  | ok o =>
    rw [hv] at hrecheck
    cases hw : override? lookup shutdownVariable with
    | error e =>
      rw [hw] at hshutdown
      cases hshutdown with
      | fault hraw hno trimmed spoils =>
        exact .refused ⟨⟨[recheckVariable], [], rfl, by simpa using hrecheck.readable⟩, hraw, hno⟩
          trimmed spoils
    | ok o' =>
      rw [hw] at hshutdown
      refine .overridden ?_ (hrecheck.overriddenBy_iff.2 rfl) (hshutdown.overriddenBy_iff.2 rfl)
      simpa [overrideVariables] using ⟨hrecheck.readable, hshutdown.readable⟩

lemma Overrides.eq {r : Except ReconcileError ControllerConfig} (h : Overrides c lookup r) :
    c.withOverrides lookup = r := by
  cases h with
  | overridden readable hrecheck hshutdown =>
    obtain ⟨o, hv, hreads⟩ :=
      exists_override? (readable recheckVariable (by simp [overrideVariables]))
    obtain ⟨o', hw, hreads'⟩ :=
      exists_override? (readable shutdownVariable (by simp [overrideVariables]))
    simp only [withOverrides, hv, hw, hreads.overriddenBy_iff.1 hrecheck,
      hreads'.overriddenBy_iff.1 hshutdown]
  | @refused setting raw core fault first trimmed spoils =>
    have hread : Unsigned.read (Text.trim raw.toList) = .error fault := by
      rw [trimmed.trim_eq, Unsigned.read_eq_error_iff]
      exact spoils
    have hfault := override?_of_fault first.value hread
    rcases firstAtFault_cases first with rfl | ⟨rfl, hreadable⟩
    · simp only [withOverrides, hfault]
    · obtain ⟨o, hv, -⟩ := exists_override? hreadable
      simp only [withOverrides, hv, hfault]

/-- A configuration is overridden just if each variable gives seconds or is not set; what comes of
it then, and how it fails otherwise, is just what `Overrides` says. -/
theorem withOverrides_grammar (c : ControllerConfig) (lookup : String → Option String) :
    ((∃ c', c.withOverrides lookup = .ok c') ↔ ∀ v ∈ overrideVariables, Readable lookup v) ∧
      ∀ r, c.withOverrides lookup = r ↔ Overrides c lookup r := by
  have hiff : ∀ r, c.withOverrides lookup = r ↔ Overrides c lookup r :=
    fun r => ⟨fun h => h ▸ overrides_withOverrides c lookup, Overrides.eq⟩
  refine ⟨⟨?_, fun hreadable => ?_⟩, hiff⟩
  · rintro ⟨c', hc'⟩
    cases (hiff _).1 hc' with
    | overridden readable _ _ => exact readable
  · cases hr : c.withOverrides lookup with
    | ok c' => exact ⟨c', rfl⟩
    | error e =>
      cases (hiff _).1 hr with
      | refused first _ _ =>
        obtain ⟨earlier, later, hsplit, -⟩ := first.earlier
        obtain ⟨secs, gives⟩ := hreadable _ (by simp [hsplit]) _ first.value
        exact absurd gives (first.fault secs)

-- white space, a plus sign and leading zeros are allowed; a number of 2 ^ 64 is too large
example :
    let lookup (value : String) : String → Option String :=
      fun v => if v = shutdownVariable then some value else none
    ({} : ControllerConfig).withOverrides (lookup "\u00A0+0018446744073709551615\n") =
        .ok { shutdownTimeout := .ofSeconds 18446744073709551615 } ∧
      ({} : ControllerConfig).withOverrides (lookup " 18446744073709551616x") =
        .error (.invalidConfig ("INTEGRATOR_SHUTDOWN_TIMEOUT_SECS= 18446744073709551616x: " ++
          "number too large to fit in target type")) := by
  decide +kernel

end Convergence.ControllerConfig
