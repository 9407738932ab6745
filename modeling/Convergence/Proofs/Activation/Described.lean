import Convergence.Proofs.Activation.Runs
import Convergence.Proofs.Project
import Convergence.Proofs.Record.History
/-!
# Whether the repository describes what is deployed

An attempt pushes the project of the revision that it is to bring to life, unless the record says
that a project was pushed before.  It may have been the project of another revision: the draft can
be edited between two attempts, and the notes of the setup steps do not say which revision they are
about.

The main results are

* `described_iff`: when an integration comes to be active, its repository describes the revision of
  the last attempt that pushed, so it describes the deployed revision exactly if that attempt was
  for a revision that does the same;
* `not_forall_described`: it need not.
-/

namespace Convergence

/-- What the project in the repository of a name says that the integration does. -/
def Environment.specAt? (e : Environment) (name : String) : Option Spec :=
  (e.sourceControl.repository? name).bind fun r => Project.specIn? r.files

lemma Environment.specAt?_eq {e e' : Environment} {name : String}
    (h : e'.sourceControl.repository? name = e.sourceControl.repository? name) :
    e'.specAt? name = e.specAt? name := by
  rw [specAt?, h, specAt?]

/-! ## What one attempt does to the description -/

namespace Activation

variable {c : Call} {d : Descriptor} {n n' : Notes} {e e' : Environment} {log : List Entry}

/-- A push leaves the description of the revision that is pushed; without one the description stays.
-/
def Describes (name : String) (r : Revision) (e : Environment) (log : List Entry)
    (e' : Environment) : Prop :=
  e'.specAt? name = if .push name ∈ effects log then some r.spec else e.specAt? name

/-- What follows pushes nothing. -/
lemma Describes.append {name : String} {r : Revision} {e₁ : Environment} {l : List Entry}
    (h : Describes name r e log e₁) (hl : .push name ∉ effects l)
    (hsame : e'.sourceControl.repositories = e₁.sourceControl.repositories) :
    Describes name r e (log ++ l) e' := by
  have hmem : .push name ∈ effects (log ++ l) ↔ .push name ∈ effects log := by simp [hl]
  have hspec : e'.specAt? name = e₁.specAt? name :=
    Environment.specAt?_eq (by rw [SourceControl.repository?, hsame, SourceControl.repository?])
  simp only [Describes, hmem, hspec]
  exact h

lemma RepositorySetUp.describes {x : Except ReconcileError Unit × Notes}
    (h : RepositorySetUp Project.generator c d n e x e' log) :
    Describes d.name c.revision e log e' := by
  cases h with
  | skipped hdone => simp [Describes]
  | failed hdone hsame hlog =>
    have hspec : e'.specAt? d.name = e.specAt? d.name :=
      Environment.specAt?_eq (hsame.spares d.name).repository
    simpa [Describes, hlog] using hspec
  | @pushed files _ _ hdone hfiles hrepositories hurl hdeployments hlog =>
    -- the new files win over those that the repository held, so what it held does not matter
    obtain rfl : Project.files c.integration c.revision = files := Except.ok.inj hfiles
    have hspec : e'.specAt? d.name = some c.revision.spec := by
      rw [Environment.specAt?, SourceControl.repository?, hrepositories, Dict.find?_insert_self,
        Option.bind_some, Repository.pushed, Project.specIn?_union]
    simpa [Describes, hlog] using hspec

lemma Converged.describes {x : Except ReconcileError Bool × Notes}
    (h : Converged Project.generator c d n e x e' log) :
    Describes d.name c.revision e log e' := by
  cases h with
  | unpushed h => exact h.describes
  | uncreated h₁ h₂ =>
    obtain ⟨hpush, hrepositories⟩ := h₂.spares
    exact h₁.describes.append (hpush d.name) hrepositories
  | asked h₁ h₂ hsame hlog =>
    obtain ⟨hpush, hrepositories⟩ := h₂.spares
    have hcreated := h₁.describes.append (hpush d.name) hrepositories
    exact hcreated.append (by simp [hlog]) hsame.repositories

lemma Attempted.describes {u : StatusUpdate} (h : Attempted Project.generator c e u e' log) :
    Describes (resourceName c.integration) c.revision e log e' := by
  cases h with
  | untried h => simp [Describes]
  | tried htoken hvalid h =>
    have hspec := h.describes
    rw [descriptor_name] at hspec
    exact hspec

/-! ## What one attempt notes -/

section Notes

variable {generate : Project.Generator}

/-- An attempt with a usable token that reports the integration as active found the first setup step
done, or pushed. -/
lemma Attempted.pushed {u : StatusUpdate} (h : Attempted generate c e u e' log)
    (hactive : u.state = .active) (htoken : c.integration.HasToken c.clock) :
    SetupSteps.sourceRepo ∈ c.integration.stepsDone ∨
      .push (resourceName c.integration) ∈ effects log := by
  cases h with
  | untried hno => exact absurd htoken hno
  | @tried token result n' e' log htoken hvalid h =>
    obtain rfl := report_active hactive
    have hname := descriptor_name c token.value e.mint.1
    rcases h.notesEffects _ _ .push h.noted with hbefore | hpush
    · exact Or.inl (SetupSteps.mem_ofList.1 hbefore)
    · rw [hname] at hpush
      exact Or.inr (by simpa [effects, Entry.effect?] using hpush)

end Notes

end Activation

/-! ## What a run does -/

namespace Course

/-- The revision of the last attempt that pushed to a repository. -/
def lastPushed? (name : String) (rounds : List Round) : Option Revision :=
  ((rounds.filter fun r => .push name ∈ effects r.log).getLast?).map (·.revision)

lemma lastPushed?_concat (name : String) (rounds : List Round) (r : Round) :
    lastPushed? name (rounds ++ [r])
      = if .push name ∈ effects r.log then some r.revision else lastPushed? name rounds := by
  by_cases h : Effect.push name ∈ effects r.log
  · simp [lastPushed?, List.filter_append, h]
  · simp [lastPushed?, List.filter_append, h]

lemma isSome_lastPushed? {name : String} {rounds : List Round}
    (h : ∃ r ∈ rounds, .push name ∈ effects r.log) : (lastPushed? name rounds).isSome := by
  obtain ⟨r, hr, hpush⟩ := h
  rw [lastPushed?, Option.isSome_map, List.getLast?_isSome]
  exact List.ne_nil_of_mem (List.mem_filter.2 ⟨hr, by simpa using hpush⟩)

variable {id : IntegrationId} {name : String} {c : Course}

/-- The repository describes the revision of the last attempt that pushed. -/
structure Documented (id : IntegrationId) (name : String) (c : Course) : Prop extends
    Truthful id name c where
  described : ∀ r, lastPushed? name c.rounds = some r →
    c.site.environment.specAt? name = some r.spec

namespace Documented

/-- An attempt with this log was for a revision that is now described, or it pushed nothing. -/
lemma of_called (h : c.Documented id name) {c' : Course} {i : Integration} {u : StatusUpdate}
    {clock : Timestamp} {log : List Entry} (hi : c.record? id = some i)
    (hattempt : Activation.Attempted Project.generator
      (Worker.callOf { c.site with clock } (.activate Project.generator) i) c.site.environment u
      c'.site.environment log)
    (hrounds : c'.rounds = c.rounds ++ [⟨i.targetRevision, log⟩]) :
    ∀ r, lastPushed? name c'.rounds = some r → c'.site.environment.specAt? name = some r.spec := by
  intro r hr
  have hspec : Activation.Describes (resourceName i) i.targetRevision c.site.environment log
      c'.site.environment := hattempt.describes
  rw [h.named i hi] at hspec
  rw [hrounds, lastPushed?_concat] at hr
  rw [hspec]
  split at hr
  · next hpush =>
    cases hr
    rw [if_pos hpush]
  · next hpush =>
    rw [if_neg hpush]
    exact h.described r hr

theorem turn (h : c.Documented id name) {t : Turn} (ht : t.Spares name) :
    (c.turn Project.generator id t).Documented id name where
  toTruthful := h.toTruthful.turn t
  described := by
    intro r hr
    cases t with
    | attempt clock =>
      cases turned_attempt h.idle clock with
      | refused hno hrecords hfaults henvironment hrounds =>
        rw [hrounds] at hr
        rw [henvironment]
        exact h.described r hr
      | called hi hdesired hunconverged hattempt hstore hrounds =>
        exact h.of_called hi hattempt hrounds r hr
    | backends change =>
      rw [← h.described r hr]
      exact Environment.specAt?_eq (ht c.site.environment).repository
    | failStore call times => exact h.described r hr
    | edit draft steps =>
      rw [rounds_edit] at hr
      rw [environment_edit]
      exact h.described r hr

/-- An integration comes to be active by a promotion, after a push. -/
lemma promoted (h : c.Documented id name) {i j : Integration} {clock : Timestamp}
    (hi : c.record? id = some i) (hcurrent : i.current ≠ some .active) (htoken : i.HasToken clock)
    (hj : (c.turn Project.generator id (.attempt clock)).record? id = some j)
    (hactive : j.current = some .active) :
    (∃ r, j.activeRevision? = some r ∧ r.spec = i.targetRevision.spec) ∧
      (lastPushed? name (c.turn Project.generator id (.attempt clock)).rounds).isSome := by
  rw [record?] at hj
  cases turned_attempt h.idle clock with
  | refused hno hrecords hfaults henvironment hrounds =>
    rw [Store.record?, hrecords] at hj
    obtain rfl : i = j := Option.some.inj (hi.symm.trans hj)
    exact absurd hactive hcurrent
  | @called i' u log hi' hdesired hunconverged hattempt hstore hrounds =>
    obtain rfl : i = i' := Option.some.inj (hi.symm.trans hi')
    rw [hstore] at hj
    rcases record?_of_called h.keyed hi hj with rfl | happly | ⟨message, rfl⟩
    · exact absurd hactive hcurrent
    · have hstate : u.state = .active :=
        Option.some.inj ((Worker.current_applyUpdate happly).symm.trans hactive)
      refine ⟨?_, ?_⟩
      · obtain ⟨r, hr⟩ := hattempt.exists_promoted hstate htoken
        have hspec : r.spec = i.targetRevision.spec := (hattempt.of_promoted hr).1
        obtain ⟨k, ⟨hnone, -⟩ | ⟨r', v, hr', hpromote⟩, rfl⟩ :=
          Integration.applyUpdate_eq_ok happly
        · simp [hr] at hnone
        · obtain rfl : r = r' := Option.some.inj (hr.symm.trans hr')
          obtain ⟨s, hs, hsame⟩ := Integration.activeRevision?_promote hpromote
          exact ⟨s, hs, hsame.trans hspec⟩
      · refine isSome_lastPushed? ?_
        rw [hrounds]
        rcases hattempt.pushed hstate htoken with hbefore | hnow
        · obtain ⟨r, hr, hpush⟩ := h.noted i hi _ _ .push hbefore
          exact ⟨r, List.mem_append_left _ hr, hpush⟩
        · have hpush : .push name ∈ effects log := by rwa [← h.named i hi]
          exact ⟨_, List.mem_concat_self, hpush⟩
    · exact absurd hactive hcurrent

end Documented

/-- In a run in which other clients edit draft and steps of a record, the repository describes the
revision of the last attempt that pushed. -/
theorem documented_turns {start : Course} (hstart : start.InOrder) (hrounds : start.rounds = [])
    {i₀ : Integration} (hi₀ : start.record? id = some i₀) (hsteps : i₀.stepsDone = [])
    {ts : List Turn} (hts : ∀ t ∈ ts, t.Spares (resourceName i₀)) :
    (start.turns Project.generator id ts).Documented id (resourceName i₀) := by
  have hfirst : start.Documented id (resourceName i₀) := by
    refine ⟨.of_stepsDone_eq_nil hstart hi₀ hsteps, fun r hr => ?_⟩
    simp [lastPushed?, hrounds] at hr
  have hkeeps : ∀ (c : Course) (t : Turn), t.Spares (resourceName i₀) →
      c.Documented id (resourceName i₀) →
      (c.turn Project.generator id t).Documented id (resourceName i₀) := fun _ _ ht h => h.turn ht
  exact turns_invariant Project.generator id hkeeps hfirst hts

/-- **What is deployed is what was pushed, if it was pushed for it.**  In a run in which other
clients edit draft and steps of a record, an attempt with a valid token that brings the integration
to life finds a project in its repository that does what the revision of the last attempt with a
push does.  So it does what the deployed revision does exactly if that attempt was for a revision
that does the same. -/
theorem described_iff {start : Course} (hstart : start.InOrder) (hrounds : start.rounds = [])
    {i₀ : Integration} (hi₀ : start.record? id = some i₀) (hsteps : i₀.stepsDone = [])
    {ts : List Turn} (hts : ∀ t ∈ ts, t.Spares (resourceName i₀)) {i j : Integration}
    (hi : (start.turns Project.generator id ts).record? id = some i)
    (hcurrent : i.current ≠ some .active) {clock : Timestamp} (htoken : i.HasToken clock)
    (hj : (start.turns Project.generator id (ts ++ [.attempt clock])).record? id = some j)
    (hactive : j.current = some .active) :
    let c := start.turns Project.generator id (ts ++ [.attempt clock])
    ∃ deployed pushed, j.activeRevision? = some deployed ∧
      deployed.spec = i.targetRevision.spec ∧
      lastPushed? (resourceName j) c.rounds = some pushed ∧
      c.site.environment.specAt? (resourceName j) = some pushed.spec ∧
      (c.site.environment.specAt? (resourceName j) = some deployed.spec ↔
        pushed.spec = deployed.spec) := by
  intro c
  -- the revision to deploy is that of the record before the last attempt, and the rest is about
  -- the course after it
  have hbefore := documented_turns hstart hrounds hi₀ hsteps hts
  have hafter := hbefore.turn (t := .attempt clock) trivial
  rw [← turns_append] at hafter
  rw [turns_append] at hj
  obtain ⟨⟨deployed, hdeployed, htarget⟩, hpushed⟩ := hbefore.promoted hi hcurrent htoken hj hactive
  rw [← turns_append] at hj hpushed
  obtain ⟨pushed, hpushed⟩ := Option.isSome_iff_exists.1 hpushed
  have hspec := hafter.described pushed hpushed
  rw [← hafter.named j hj] at hspec hpushed
  refine ⟨deployed, pushed, hdeployed, htarget, hpushed, hspec, ?_⟩
  rw [hspec, Option.some_inj]

/-! ## A draft that is replaced between two attempts -/

/-- The first attempt pushes the first draft.  Then the draft is replaced, and the deployment
becomes ready. -/
def replacing : List Turn :=
  [.attempt draftRecord.createdAt, .edit (some secondDraft) [],
    .backends (Environment.markReady "orders-sync")]

lemma spares_replacing : ∀ t ∈ replacing, t.Spares (resourceName draftRecord) := by
  intro t ht
  simp only [replacing, List.mem_cons, List.not_mem_nil, or_false] at ht
  rcases ht with rfl | rfl | rfl
  · trivial
  · trivial
  · exact Environment.spares_markReady _ _

/-- The course after these turns and one more attempt. -/
def replacedCourse : Course :=
  draftCourse.turns Project.generator "x" (replacing ++ [.attempt draftRecord.createdAt])

/-- The last attempt promotes the second draft, but the last one that pushed was for the first. -/
lemma replacing_promotes :
    ∃ i j, (draftCourse.turns Project.generator "x" replacing).record? "x" = some i ∧
      i.current ≠ some .active ∧ i.HasToken draftRecord.createdAt ∧
      replacedCourse.record? "x" = some j ∧ j.current = some .active ∧
      j.activeRevision?.map (·.spec) = some secondDraft.spec ∧
      (lastPushed? (resourceName draftRecord) replacedCourse.rounds).map (·.spec)
        = some firstDraft.spec := by
  have hbefore : ((draftCourse.turns Project.generator "x" replacing).record? "x").any (fun i =>
      i.current != some .active && i.token == some { value := "t" }) = true := by decide +kernel
  have hafter : (replacedCourse.record? "x").any (fun j => j.current == some .active &&
      j.activeRevision?.map (·.spec) == some secondDraft.spec) = true := by decide +kernel
  have hpushed : (lastPushed? (resourceName draftRecord) replacedCourse.rounds).map (·.spec)
      = some firstDraft.spec := by decide +kernel
  obtain ⟨i, hi, hwaits⟩ := (Option.any_eq_true _ _).1 hbefore
  obtain ⟨j, hj, hruns⟩ := (Option.any_eq_true _ _).1 hafter
  simp only [Bool.and_eq_true, bne_iff_ne, beq_iff_eq] at hwaits hruns
  exact ⟨i, j, hi, hwaits.1, ⟨_, hwaits.2, rfl⟩, hj, hruns.1, hruns.2, hpushed⟩

lemma documented_replacedCourse : replacedCourse.Documented "x" (resourceName draftRecord) := by
  refine documented_turns inOrder_draftCourse rfl rfl rfl fun t ht => ?_
  rcases List.mem_append.1 ht with ht | ht
  · exact spares_replacing t ht
  · rw [List.mem_singleton.1 ht]
    trivial

/-- The repository describes the first draft, and the deployed revision is the second. -/
theorem replacing_misdescribes : ∃ j deployed, replacedCourse.record? "x" = some j ∧
    j.current = some .active ∧ j.activeRevision? = some deployed ∧
    replacedCourse.site.environment.specAt? (resourceName j) ≠ some deployed.spec := by
  obtain ⟨i, j, hi, hcurrent, htoken, hj, hactive, hruns, hfirst⟩ := replacing_promotes
  obtain ⟨deployed, pushed, hdeployed, -, hpushed, -, hiff⟩ := described_iff inOrder_draftCourse rfl
    (rfl : draftCourse.record? "x" = some draftRecord) rfl spares_replacing hi hcurrent htoken hj
    hactive
  have hpushed : lastPushed? (resourceName j) replacedCourse.rounds = some pushed := hpushed
  rw [documented_replacedCourse.named j hj] at hpushed
  rw [hpushed, Option.map_some] at hfirst
  rw [hdeployed, Option.map_some] at hruns
  refine ⟨j, deployed, hj, hactive, hdeployed, fun hspec => ?_⟩
  have hsame : pushed.spec = deployed.spec := hiff.1 hspec
  rw [Option.some.inj hfirst, Option.some.inj hruns] at hsame
  exact firstDraft_ne_secondDraft hsame

/-- It is not so that the repository always describes the deployed revision. -/
theorem not_forall_described : ¬ ∀ (id : IntegrationId) (start : Course) (i₀ : Integration)
    (ts : List Turn) (clock : Timestamp) (i j : Integration) (deployed : Revision),
    start.InOrder → start.rounds = [] → start.record? id = some i₀ → i₀.stepsDone = [] →
    (∀ time, i₀.HasToken time) → (∀ t ∈ ts, t.Spares (resourceName i₀)) →
    (start.turns Project.generator id ts).record? id = some i → i.current ≠ some .active →
    (start.turns Project.generator id (ts ++ [.attempt clock])).record? id = some j →
    j.current = some .active → j.activeRevision? = some deployed →
    (start.turns Project.generator id (ts ++ [.attempt clock])).site.environment.specAt?
      (resourceName j) = some deployed.spec := by
  intro hall
  obtain ⟨i, j, hi, hcurrent, -, hj, hactive, hruns, hfirst⟩ := replacing_promotes
  obtain ⟨deployed, hdeployed, hsecond⟩ := Option.map_eq_some_iff.1 hruns
  have hdescribes := hall "x" draftCourse draftRecord replacing draftRecord.createdAt i j deployed
    inOrder_draftCourse rfl rfl rfl (fun _ => ⟨_, rfl, rfl⟩) spares_replacing hi hcurrent hj hactive
    hdeployed
  obtain ⟨pushed, hpushed, hpushedSpec⟩ := Option.map_eq_some_iff.1 hfirst
  have hspec := documented_replacedCourse.described pushed hpushed
  rw [← documented_replacedCourse.named j hj] at hspec
  have hsame : pushed.spec = deployed.spec := Option.some.inj (hspec.symm.trans hdescribes)
  rw [hpushedSpec, hsecond] at hsame
  exact firstDraft_ne_secondDraft hsame

end Course

end Convergence
