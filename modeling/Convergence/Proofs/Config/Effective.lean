import Convergence.Proofs.Config.Codec
import Convergence.Proofs.Toml.Document
/-!
# The configuration in effect

The configuration that is in effect can be written down and loaded again: from its TOML text, in a
file with that extension and without overrides, the same configuration comes back (`load_toml`).
This rests on two facts.  The tables of any configuration are read as its node (`read?_toml`), and
whatever a configuration is loaded from, its durations are whole seconds (`whole_of_load`), so the
node has room for all of it.
-/

namespace Convergence

open Toml

section Except

variable {ε ε' α β : Type} {x : Except ε α}

lemma bind_eq_ok {f : α → Except ε β} {b : β} :
    x >>= f = .ok b ↔ ∃ a, x = .ok a ∧ f a = .ok b := by
  cases x <;> simp [bind, Except.bind]

lemma mapError_eq_ok {f : ε → ε'} {a : α} : x.mapError f = .ok a ↔ x = .ok a := by
  cases x <;> simp [Except.mapError]

end Except

/-! ## What is loaded has whole seconds -/

lemma Fields.of_defaulted {α : Type} {P : α → Prop} {m : Fields} {name : String} {default a : α}
    {read : Node → Option α} (hdefault : P default) (hread : ∀ n a, read n = some a → P a)
    (h : m.defaulted name default read = some a) : P a := by
  rw [defaulted] at h
  split at h
  · exact Option.some.inj h ▸ hdefault
  · exact hread _ a h

lemma Duration.whole_of_ofNode? (n : Node) (d : Duration) (h : ofNode? n = some d) :
    d.subsecond = 0 := by
  obtain ⟨secs, -, rfl⟩ := Option.map_eq_some_iff.1 h
  exact subsecond_ofSeconds _

namespace RetryPolicy

lemma whole_of_ofMembers? {name : String} {members : List (String × Node)} {p : RetryPolicy}
    (h : ofMembers? name members = some p) : ∀ d ∈ p.durations, d.subsecond = 0 := by
  rw [ofMembers?] at h
  split at h
  · cases h
    exact List.forall_mem_nil _
  split at h
  · split at h
    · obtain ⟨d, hd, rfl⟩ := Option.map_eq_some_iff.1 h
      obtain ⟨n, -, hn⟩ := Option.bind_eq_some_iff.1 hd
      simpa [durations] using Duration.whole_of_ofNode? n d hn
    · cases h
  · cases h

lemma whole_of_ofItems? {name : String} {items : List Node} {p : RetryPolicy}
    (h : ofItems? name items = some p) : ∀ d ∈ p.durations, d.subsecond = 0 := by
  rw [ofItems?.eq_def] at h
  split at h
  · cases h
    exact List.forall_mem_nil _
  split at h
  · split at h
    · obtain ⟨d, hd, rfl⟩ := Option.map_eq_some_iff.1 h
      simpa [durations] using Duration.whole_of_ofNode? _ d hd
    · cases h
  · cases h

/-- A policy is read from a map or from a list of items. -/
lemma whole_of_ofNode? (f : Format) (n : Node) (p : RetryPolicy) (h : ofNode? f n = some p) :
    ∀ d ∈ p.durations, d.subsecond = 0 := by
  rw [ofNode?.eq_def] at h
  split at h
  · split at h
    · split at h
      · obtain ⟨name, -, hname⟩ := Option.bind_eq_some_iff.1 h
        exact whole_of_ofMembers? hname
      · cases h
    · obtain ⟨name, -, hname⟩ := Option.bind_eq_some_iff.1 h
      exact whole_of_ofItems? hname
    · cases h
  · cases h

end RetryPolicy

namespace ControllerConfig

/-- The durations of the default configuration are whole seconds. -/
lemma whole_default : ∀ d ∈ ({} : ControllerConfig).durations, d.subsecond = 0 := by
  simp [durations, RetryPolicy.durations, Duration.subsecond_ofSeconds]

lemma whole_of_ofNode? (f : Format) (n : Node) (c : ControllerConfig) (h : ofNode? f n = some c) :
    ∀ d ∈ c.durations, d.subsecond = 0 := by
  simp only [ofNode?, Option.bind_eq_bind, Option.bind_eq_some_iff, Option.pure_def,
    Option.some.injEq] at h
  obtain ⟨m, -, recheck, hrecheck, shutdown, hshutdown, -, -, retry, hretry, rfl⟩ := h
  have hwhole : recheck.subsecond = 0 ∧ shutdown.subsecond = 0 :=
    ⟨Fields.of_defaulted (P := fun d => d.subsecond = 0) (Duration.subsecond_ofSeconds 60)
        Duration.whole_of_ofNode? hrecheck,
      Fields.of_defaulted (P := fun d => d.subsecond = 0) (Duration.subsecond_ofSeconds 10)
        Duration.whole_of_ofNode? hshutdown⟩
  have hpolicy : ∀ d ∈ retry.durations, d.subsecond = 0 :=
    Fields.of_defaulted (P := fun p => ∀ d ∈ p.durations, d.subsecond = 0)
      (List.forall_mem_nil _) (RetryPolicy.whole_of_ofNode? f.inner) hretry
  simpa [durations, hwhole] using hpolicy

lemma whole_of_override? {lookup : String → Option String} {setting : String} {d : Duration}
    (h : override? lookup setting = .ok (some d)) : d.subsecond = 0 := by
  rw [override?] at h
  split at h
  · cases h
  · split at h
    · cases h
      exact Duration.subsecond_ofSeconds _
    · cases h

/-- Overrides are whole seconds, too. -/
lemma whole_of_withOverrides {c c' : ControllerConfig} {lookup : String → Option String}
    (hc : ∀ d ∈ c.durations, d.subsecond = 0) (h : c.withOverrides lookup = .ok c') :
    ∀ d ∈ c'.durations, d.subsecond = 0 := by
  have hchosen : ∀ {setting : String} {o : Option Duration} {d : Duration}, d.subsecond = 0 →
      override? lookup setting = .ok o → (o.getD d).subsecond = 0 := by
    intro setting o d hd ho
    cases o with
    | none => exact hd
    | some e => exact whole_of_override? ho
  simp only [durations, List.forall_mem_cons] at hc
  rw [withOverrides] at h
  split at h
  · cases h
  · next recheck hrecheck =>
    split at h
    · cases h
    · next shutdown hshutdown =>
      cases h
      simp only [durations, List.forall_mem_cons]
      exact ⟨hchosen hc.1 hrecheck, hchosen hc.2.1 hshutdown, hc.2.2⟩

end ControllerConfig

/-- What a document describes, a node describes. -/
lemma File.exists_node_of_decode? {α : Type} {path text : String}
    {ofNode? : Format → Node → Option α} {a : α} (h : decode? path text ofNode? = some a) :
    ∃ f n, ofNode? f n = some a := by
  rw [decode?] at h
  split at h
  · obtain ⟨n, -, hn⟩ := Option.bind_eq_some_iff.1 h
    exact ⟨.json, n, hn⟩
  · obtain ⟨n, -, hn⟩ := Option.bind_eq_some_iff.1 h
    exact ⟨.toml, n, hn⟩

namespace AppConfig

lemma whole_of_ofNode? (f : Format) (n : Node) (c : AppConfig) (h : ofNode? f n = some c) :
    ∀ d ∈ c.controller.durations, d.subsecond = 0 := by
  simp only [ofNode?, Option.bind_eq_bind, Option.bind_eq_some_iff, Option.pure_def,
    Option.some.injEq] at h
  obtain ⟨m, -, controller, hcontroller, -, -, rfl⟩ := h
  exact Fields.of_defaulted (P := fun c => ∀ d ∈ c.durations, d.subsecond = 0)
    ControllerConfig.whole_default (ControllerConfig.whole_of_ofNode? f.inner) hcontroller

lemma whole_of_ofFile {file : File} {c : AppConfig} (h : ofFile file = .ok c) :
    ∀ d ∈ c.controller.durations, d.subsecond = 0 := by
  rw [ofFile] at h
  split at h
  · cases h
  · split at h
    · next hdecode =>
      cases h
      obtain ⟨f, n, hn⟩ := File.exists_node_of_decode? hdecode
      exact whole_of_ofNode? f n c hn
    · cases h

/-- The configuration before overrides. -/
def source : Option File → Except AppError AppConfig
  | some file => ofFile file
  | none => .ok {}

lemma whole_of_source {file : Option File} {c : AppConfig} (h : source file = .ok c) :
    ∀ d ∈ c.controller.durations, d.subsecond = 0 := by
  cases file with
  | none =>
    cases h
    exact ControllerConfig.whole_default
  | some file => exact whole_of_ofFile h

variable {file : Option File} {lookup : String → Option String} {c : AppConfig}

lemma load_eq (file : Option File) (lookup : String → Option String) : load file lookup = (do
    let before ← source file
    let controller ← (before.controller.withOverrides lookup).mapError AppError.invalidOverride
    controller.validate.mapError AppError.invalidController
    pure { before with controller }) := by
  cases file <;> rfl

/-- A configuration is loaded if its source can be read, the overrides can be read, and it is valid
with them. -/
lemma load_eq_ok : load file lookup = .ok c ↔
    ∃ before, source file = .ok before
      ∧ before.controller.withOverrides lookup = .ok c.controller
      ∧ c.controller.validate = .ok () ∧ before.backends = c.backends := by
  simp only [load_eq, bind_eq_ok, mapError_eq_ok, pure, Except.pure, Except.ok.injEq]
  constructor
  · rintro ⟨before, hbefore, controller, hcontroller, _, hvalid, rfl⟩
    exact ⟨before, hbefore, hcontroller, hvalid, rfl⟩
  · rintro ⟨before, hbefore, hcontroller, hvalid, hbackends⟩
    exact ⟨before, hbefore, c.controller, hcontroller, (), hvalid, by rw [hbackends]⟩

/-- Whatever a configuration is loaded from, its durations are whole seconds. -/
lemma whole_of_load (h : load file lookup = .ok c) :
    ∀ d ∈ c.controller.durations, d.subsecond = 0 := by
  obtain ⟨before, hbefore, hcontroller, -⟩ := load_eq_ok.1 h
  exact ControllerConfig.whole_of_withOverrides (whole_of_source hbefore) hcontroller

/-! ## What is written is read -/

/-- The tables of a configuration, with the paths that their headers name. -/
def pathedTables (c : AppConfig) : List (Table × List String) :=
  [(⟨"controller", c.controller.settings⟩, ["controller"]),
    (⟨"controller.retry", policyMembers c.controller.retry.node⟩, ["controller", "retry"]),
    (⟨"backends", c.backends.settings⟩, ["backends"])]

lemma isScalar_node (d : Duration) : IsScalar d.node := .nat d.holds_node.plain

lemma isPlain_of_mem_pathedTables (c : AppConfig) : ∀ t ∈ c.pathedTables, t.1.IsPlain t.2 := by
  have hretry : ∀ m ∈ policyMembers c.controller.retry.node, IsName m.1 ∧ IsScalar m.2 := by
    cases c.controller.retry with
    | fixed => simpa [policyMembers, RetryPolicy.node] using ⟨by decide, .str "fixed"⟩
    | exponential d =>
      simpa [policyMembers, RetryPolicy.node] using
        ⟨⟨by decide, .str "exponential"⟩, by decide, isScalar_node d⟩
  have hpaths : IsPath ["controller"] ∧ IsPath ["controller", "retry"] ∧ IsPath ["backends"] := by
    decide
  have hdotted : "controller.retry".toList = dotted ["controller", "retry"] := by decide
  intro t ht
  simp only [pathedTables, List.mem_cons, List.not_mem_nil, or_false] at ht
  rcases ht with rfl | rfl | rfl
  · refine ⟨rfl, hpaths.1, ?_, ?_⟩
    · simp [ControllerConfig.settings]
      decide
    · simp [ControllerConfig.settings, isScalar_node, IsScalar.str]
  · exact ⟨hdotted, hpaths.2.1, fun m hm => (hretry m hm).1, fun m hm => (hretry m hm).2⟩
  · refine ⟨rfl, hpaths.2.2, ?_, ?_⟩
    · simp [BackendConfig.settings]
      decide
    · simp [BackendConfig.settings, IsScalar.str, IsScalar.bool]

/-- What the tables build is the node of the configuration. -/
lemma build?_statementsOf (c : AppConfig) :
    (build? (statementsOf c.pathedTables) [] []).map (fun ms => Node.map (membersOf ms))
      = some c.node := by
  obtain ⟨⟨recheck, shutdown, subscriber, retry⟩, backends⟩ := c
  cases retry with
  | fixed => rfl
  | exponential maxInterval => rfl

/-- The TOML text of any configuration is read as its node. -/
theorem read?_toml (c : AppConfig) : Toml.read? c.toml = some c.node := by
  have htables : c.tables = c.pathedTables.map Prod.fst := rfl
  rw [toml, htables, read?_text c.isPlain_of_mem_pathedTables, build?_statementsOf]

end AppConfig

/-! ## Names of files -/

namespace File

lemma parts_of_not_mem {cs : List Char} (h : '/' ∉ cs) : parts cs = [cs] := by
  induction cs with
  | nil => rfl
  | cons c cs ih =>
    simp only [List.mem_cons, not_or] at h
    rw [parts, if_neg (Ne.symm h.1), ih h.2]

/-- What a path ends with, its last part ends with. -/
lemma exists_parts_append (cs : List Char) {ending : List Char} (h : '/' ∉ ending) :
    ∃ before last, parts (cs ++ ending) = before ++ [last ++ ending] := by
  induction cs with
  | nil => exact ⟨[], [], by simp [parts_of_not_mem h]⟩
  | cons c cs ih =>
    obtain ⟨before, last, hparts⟩ := ih
    rw [List.cons_append, parts]
    split
    · exact ⟨[] :: before, last, by rw [hparts, List.cons_append]⟩
    · cases before with
      | nil => exact ⟨[], c :: last, by simp [hparts]⟩
      | cons part before => exact ⟨(c :: part) :: before, last, by simp [hparts]⟩

/-- The name in a path ends with what the path ends with, unless that is too short for a name. -/
lemma exists_name?_append (cs : List Char) {ending : List Char} (h : '/' ∉ ending)
    (hlong : 2 < ending.length) : ∃ last, name? (cs ++ ending) = some (last ++ ending) := by
  obtain ⟨before, last, hparts⟩ := exists_parts_append cs h
  have hne : ∀ name : List Char, name.length ≤ 2 → last ++ ending ≠ name := by
    rintro name hlength rfl
    rw [List.length_append] at hlength
    omega
  refine ⟨last, ?_⟩
  rw [name?, hparts]
  simp [List.filter_append, hne ['.'] (by decide), hne ['.', '.'] (by decide),
    List.ne_nil_of_length_pos (Nat.zero_lt_of_lt hlong)]

lemma extensionOfName?_toml (last : List Char) :
    extensionOfName? (last ++ ['.', 't', 'o', 'm', 'l']) ≠ some ['j', 's', 'o', 'n'] := by
  have hspan : (last ++ ['.', 't', 'o', 'm', 'l']).reverse.span (· ≠ '.')
      = (['l', 'm', 'o', 't'], '.' :: last.reverse) := by
    simp
  rw [extensionOfName?, hspan]
  dsimp only
  split
  · decide
  · exact nofun

/-- A path with the extension `toml` has not the extension `json`. -/
lemma isJson_toml (stem : String) : isJson (stem ++ ".toml") = false := by
  obtain ⟨last, hname⟩ : ∃ last, name? (stem.toList ++ ['.', 't', 'o', 'm', 'l'])
      = some (last ++ ['.', 't', 'o', 'm', 'l']) :=
    exists_name?_append stem.toList (by decide) (by decide)
  have hending : ".toml".toList = ['.', 't', 'o', 'm', 'l'] := rfl
  rw [isJson, String.toList_append, hending, hname, Option.bind_some]
  simpa using extensionOfName?_toml last

end File

/-! ## Loading again -/

namespace AppConfig

/-- The text of a configuration with whole seconds gives it back in every file that is not JSON. -/
lemma ofFile_toml {c : AppConfig} (h : ∀ d ∈ c.controller.durations, d.subsecond = 0)
    {path : String} (hpath : File.isJson path = false) : ofFile ⟨path, .ok c.toml⟩ = .ok c := by
  have hread := (c.holds_node (f := .toml) (by decide)).read_eq
  rw [truncated_eq_self.2 h] at hread
  have hdecode : File.decode? path c.toml ofNode? = some c := by
    rw [File.decode?.eq_def, hpath, if_neg Bool.false_ne_true, read?_toml, Option.bind_some, hread]
  simp only [ofFile, hdecode]

/-- The configuration in effect comes back from its TOML text: loaded from a file with that
extension and without overrides, it is the same configuration. -/
theorem load_toml {file : Option File} {lookup : String → Option String} {c : AppConfig}
    (h : load file lookup = .ok c) (stem : String) :
    load (some ⟨stem ++ ".toml", .ok c.toml⟩) (fun _ => none) = .ok c := by
  obtain ⟨-, -, -, hvalid, -⟩ := load_eq_ok.1 h
  have hsource : source (some ⟨stem ++ ".toml", .ok c.toml⟩) = .ok c :=
    ofFile_toml (whole_of_load h) (File.isJson_toml stem)
  have hoverrides : c.controller.withOverrides (fun _ => none) = .ok c.controller := rfl
  exact load_eq_ok.2 ⟨c, hsource, hoverrides, hvalid, rfl⟩

/-- A configuration with the longest duration, and with a name that neither kind of quotes can hold
without escapes. -/
def quoted : AppConfig where
  controller := { recheckInterval := .ofSeconds 18446744073709551615
                  retry := .exponential (.ofSeconds 9) }
  backends := { space := "'''\"\"\"\\\n\x01" }

/-- A JSON text of it, but for the duration. -/
def quotedText : String :=
  "\x7b\"controller\":\x7b\"retry\":[\"exponential\",9]\x7d,"
    ++ "\"backends\":\x7b\"namespace\":\"'''\\\"\\\"\\\"\\\\\\n\\u0001\"\x7d\x7d"

/-- The environment with the longest duration. -/
def longestRecheck (setting : String) : Option String :=
  if setting = ControllerConfig.recheckVariable then some "18446744073709551615" else none

/-- Loaded from JSON and from the environment, it comes back from its TOML text. -/
theorem load_toml_quoted :
    load (some ⟨"config.json", .ok quotedText⟩) longestRecheck = .ok quoted
    ∧ load (some ⟨"effective.toml", .ok quoted.toml⟩) (fun _ => none) = .ok quoted := by
  have h : load (some ⟨"config.json", .ok quotedText⟩) longestRecheck = .ok quoted := by
    decide +kernel
  exact ⟨h, load_toml h "effective"⟩

end AppConfig

end Convergence
