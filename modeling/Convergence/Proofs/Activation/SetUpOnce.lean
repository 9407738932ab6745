import Convergence.Proofs.Activation.Runs
/-!
# Setup steps take effect once

An activation that fails is tried again, and goes on where the last attempt stopped: the record says
which setup steps are done.  These notes agree with the backends (`Tracks`): a step is noted exactly
if it took effect, and a step that is noted does not take effect again.

The main results are

* `OnTrack.turn`: what one turn does to a course whose notes agree with the backends;
* `setUp_once`: however many attempts it takes and whatever fails in them, the project is pushed
  once and the deployment is created once, in this order.
-/

namespace Convergence

/-- The deployment of a name is built from the repository of this name. -/
def Environment.BuildsFromRepository (e : Environment) (name : String) : Prop :=
  (e.sourceControl.repository? name).isSome ∧ ∃ m, e.provisioner.deployment? name = some m ∧
    m.gitRepository = some (e.sourceControl.cloneAddress name)

namespace Activation

/-- The setup steps that are noted are those that took effect, once each and in order, and the
backends hold what came of them. -/
inductive Tracks (name : String) (e : Environment) : List String → List Effect → Prop where
  | untouched : Tracks name e [] []
  | pushed (hrepository : (e.sourceControl.repository? name).isSome) :
      Tracks name e [SetupSteps.sourceRepo] [.push name]
  | created (hbuilds : e.BuildsFromRepository name) :
      Tracks name e [SetupSteps.sourceRepo, SetupSteps.provisioning] [.push name, .create name]

namespace Tracks

variable {name : String} {e e' : Environment} {steps : List String} {took : List Effect}

/-- No step takes effect twice. -/
lemma took_prefix (h : Tracks name e steps took) : took <+: [.push name, .create name] := by
  cases h with
  | untouched => exact List.nil_prefix
  | pushed hrepository => exact ⟨[.create name], rfl⟩
  | created hbuilds => exact List.prefix_rfl

lemma nodup (h : Tracks name e steps took) : steps.Nodup := by
  cases h <;> decide

/-- Once the second step is noted, both took effect. -/
lemma of_mem_provisioning (h : Tracks name e steps took)
    (hnoted : SetupSteps.provisioning ∈ steps) :
    took = [.push name, .create name] ∧ e.BuildsFromRepository name := by
  cases h with
  | untouched => simp at hnoted
  | pushed hrepository => exact absurd hnoted (by decide)
  | created hbuilds => exact ⟨rfl, hbuilds⟩

lemma of_spares (h : Tracks name e steps took) (hs : e.Spares name e') :
    Tracks name e' steps took := by
  cases h with
  | untouched => exact .untouched
  | pushed hrepository => exact .pushed (by rwa [hs.repository])
  | created hbuilds =>
    obtain ⟨hrepository, m, hm, hurl⟩ := hbuilds
    obtain ⟨ready, hready⟩ := hs.deployment m hm
    refine .created ⟨by rwa [hs.repository], _, hready, ?_⟩
    rw [hs.address]
    exact hurl

end Tracks

/-! ## What one attempt does -/

section Attempt

variable {generate : Project.Generator} {c : Call} {d : Descriptor} {n n' : Notes}
  {e e' : Environment} {log : List Entry} {took : List Effect}

/-- The address that an attempt has noted is the one of its repository. -/
def Notes.Addresses (n : Notes) (name : String) (e : Environment) : Prop :=
  ∀ url, n.gitRepo = some url → url = e.sourceControl.cloneAddress name

/-- The first setup step is noted exactly if it takes effect. -/
lemma RepositorySetUp.tracks {result : Except ReconcileError Unit}
    (h : RepositorySetUp generate c d n e (result, n') e' log)
    (ht : Tracks d.name e n.steps.done took) (hn : n.Addresses d.name e) :
    Tracks d.name e' n'.steps.done (took ++ effects log) ∧ n.steps.done <+: n'.steps.done ∧
      n'.Addresses d.name e' := by
  cases h with
  | skipped hdone => exact ⟨by simpa using ht, List.prefix_rfl, hn⟩
  | failed hdone hsame hlog =>
    have hs := hsame.spares d.name
    refine ⟨by simpa [hlog] using ht.of_spares hs, List.prefix_rfl, fun url hurl => ?_⟩
    rw [hs.address]
    exact hn url hurl
  | pushed hdone hfiles hrepositories hurl hdeployments hlog =>
    have hnot : SetupSteps.sourceRepo ∉ n.steps.done := SetupSteps.not_mem_of_isDone hdone
    have haddress : e'.sourceControl.cloneAddress d.name = e.sourceControl.cloneAddress d.name := by
      rw [SourceControl.cloneAddress, hurl, SourceControl.cloneAddress]
    rw [hlog, SetupSteps.done_mark hnot]
    refine ⟨?_, List.prefix_append _ _, fun url hnoted => ?_⟩
    · -- nothing was noted before, as the first step comes first
      generalize n.steps.done = steps at ht hnot
      cases ht with
      | untouched =>
        refine .pushed ?_
        rw [SourceControl.repository?, hrepositories, Dict.find?_insert_self]
        rfl
      | pushed => simp at hnot
      | created => simp at hnot
    · rw [haddress]
      exact (Option.some.inj hnoted).symm

/-- The build takes its sources from the repository of its name. -/
lemma sources_eq_ok {url : String} (h : sources d (n.progress e) = .ok url)
    (hn : n.Addresses d.name e) : url = e.sourceControl.cloneAddress d.name := by
  simp only [sources, Notes.progress] at h
  split at h
  · next url' hurl' =>
    cases h
    exact hn url hurl'
  · simp only [SourceControl.cloneUrl] at h
    split at h
    · cases h
      rfl
    · cases h

/-- The second setup step is noted exactly if it takes effect. -/
lemma DeploymentSetUp.tracks {result : Except ReconcileError Unit}
    (h : DeploymentSetUp d n e (result, n') e' log) (ht : Tracks d.name e n.steps.done took)
    (hn : n.Addresses d.name e) (hnoted : SetupSteps.sourceRepo ∈ n.steps.done) :
    Tracks d.name e' n'.steps.done (took ++ effects log) ∧ n.steps.done <+: n'.steps.done := by
  cases h with
  | skipped hdone => exact ⟨by simpa using ht, List.prefix_rfl⟩
  | failed hdone hsame hlog =>
    exact ⟨by simpa [hlog] using ht.of_spares (hsame.spares d.name), List.prefix_rfl⟩
  | @created url _ _ hdone hurl hdeployments hsource hlog =>
    have hnot : SetupSteps.provisioning ∉ n.steps.done := SetupSteps.not_mem_of_isDone hdone
    have haddress : url = e.sourceControl.cloneAddress d.name := sources_eq_ok hurl hn
    rw [hlog, SetupSteps.done_mark hnot]
    refine ⟨?_, List.prefix_append _ _⟩
    generalize n.steps.done = steps at ht hnot hnoted
    cases ht with
    | untouched => simp at hnoted
    | pushed hrepository =>
      refine .created ⟨by rwa [hsource], e.provisioner.fresh { d with gitRepository := some url },
        ?_, ?_⟩
      · rw [Provisioner.deployment?, hdeployments, Dict.find?_insert_self]
      · rw [hsource, ← haddress]
        rfl
    | created => simp at hnot

/-- Every setup step is noted exactly if it takes effect; both are, if the question is asked. -/
lemma Converged.tracks {result : Except ReconcileError Bool}
    (h : Converged generate c d n e (result, n') e' log) (ht : Tracks d.name e n.steps.done took)
    (hn : n.gitRepo = none) :
    Tracks d.name e' n'.steps.done (took ++ effects log) ∧ n.steps.done <+: n'.steps.done ∧
      (result = .ok true → SetupSteps.provisioning ∈ n'.steps.done) := by
  have hnone : n.Addresses d.name e := by
    intro url hurl
    rw [hn] at hurl
    cases hurl
  cases h with
  | unpushed h =>
    obtain ⟨ht', hgrown, -⟩ := h.tracks ht hnone
    exact ⟨ht', hgrown, fun hok => by cases hok⟩
  | uncreated h₁ h₂ =>
    obtain ⟨ht₁, hgrown₁, hn₁⟩ := h₁.tracks ht hnone
    obtain ⟨ht₂, hgrown₂⟩ := h₂.tracks ht₁ hn₁ h₁.noted
    rw [effects_append, ← List.append_assoc]
    exact ⟨ht₂, hgrown₁.trans hgrown₂, fun hok => by cases hok⟩
  | asked h₁ h₂ hsame hlog =>
    obtain ⟨ht₁, hgrown₁, hn₁⟩ := h₁.tracks ht hnone
    obtain ⟨ht₂, hgrown₂⟩ := h₂.tracks ht₁ hn₁ h₁.noted
    rw [effects_append, effects_append, hlog, List.append_nil, ← List.append_assoc]
    exact ⟨ht₂.of_spares (hsame.spares d.name), hgrown₁.trans hgrown₂, fun _ => h₂.noted⟩

/-- An attempt with a usable token reports the setup steps that took effect, and as long as the
integration is not active it reports them as done. -/
lemma Attempted.tracks {u : StatusUpdate} (h : Attempted generate c e u e' log)
    (htoken : c.integration.HasToken c.clock)
    (ht : Tracks (resourceName c.integration) e c.integration.stepsDone took) :
    ∃ steps, Tracks (resourceName c.integration) e' steps (took ++ effects log) ∧
      ((u.state ≠ .active ∧ u.promoted = none ∧ u.stepsDone = steps ∧
          c.integration.stepsDone <+: steps) ∨
        (u.state = .active ∧ u.stepsDone = [] ∧ SetupSteps.provisioning ∈ steps)) := by
  cases h with
  | untried hno => exact absurd htoken hno
  | @tried token result n' _ log _ hvalid h =>
    have hsteps : (SetupSteps.ofList c.integration.stepsDone).done = c.integration.stepsDone :=
      SetupSteps.done_ofList ht.nodup
    have hmint : e.HoldsSame e.mint.2 := ⟨rfl, rfl, rfl⟩
    have hbefore : Tracks (descriptor c token.value e.mint.1).name e.mint.2
        (SetupSteps.ofList c.integration.stepsDone).done took := by
      rw [descriptor_name, hsteps]
      exact ht.of_spares (hmint.spares _)
    obtain ⟨ht', hgrown, hnoted⟩ := h.tracks hbefore rfl
    rw [descriptor_name] at ht'
    rw [hsteps] at hgrown
    refine ⟨n'.steps.done, by simpa [effects, Entry.effect?] using ht', ?_⟩
    rcases result with err | _ | _
    · exact Or.inl ⟨by simp [report], rfl, rfl, hgrown⟩
    · exact Or.inl ⟨by simp [report], rfl, rfl, hgrown⟩
    · exact Or.inr ⟨rfl, rfl, hnoted rfl⟩

end Attempt

end Activation

/-! ## What a run does -/

/-- The record is to be active, its token never expires, and no active revision of another content
stands in the way of the revision to bring to life. -/
structure Integration.CanActivate (i : Integration) : Prop where
  desired : i.desired = some .active
  token : ∃ token, i.token = some token ∧ token.expiresAt = none
  promotable : ∀ r, i.revision? (i.versionFor i.targetRevision) = some r → r.isImmutable = true →
    r.spec = i.targetRevision.spec

namespace Integration.CanActivate

variable {i j : Integration}

lemma hasToken (h : i.CanActivate) (now : Timestamp) : i.HasToken now := by
  obtain ⟨token, htoken, hforever⟩ := h.token
  exact ⟨token, htoken, by simp [Token.isExpired, hforever]⟩

/-- A report that promotes nothing is taken over, and can be followed by others. -/
lemma of_report (h : i.CanActivate) {u : StatusUpdate} (hu : u.promoted = none)
    (now : Timestamp) :
    ∃ j, i.applyUpdate u now = .ok j ∧ j.CanActivate ∧ j.current = some u.state ∧
      j.stepsDone = u.stepsDone := by
  rw [applyUpdate_eq, hu]
  exact ⟨_, rfl, ⟨h.desired, h.token, h.promotable⟩, rfl, rfl⟩

/-- The promotion of the revision to bring to life is taken over. -/
lemma of_promotion (h : i.CanActivate) {u : StatusUpdate} {r : Revision}
    (hu : u.promoted = some r) (hversion : r.version = some (i.versionFor i.targetRevision))
    (hspec : r.spec = i.targetRevision.spec) (now : Timestamp) :
    ∃ j, i.applyUpdate u now = .ok j ∧ j.desired = some .active ∧ j.current = some u.state ∧
      j.stepsDone = u.stepsDone := by
  have hfor : i.versionFor r = i.versionFor i.targetRevision := by
    rw [versionFor, hversion, Option.getD_some]
  obtain ⟨k, hk⟩ : ∃ k, i.promote r = .ok (k, i.versionFor r) := by
    refine exists_promote fun existing he ha => ?_
    rw [hfor] at he
    rw [hspec]
    exact h.promotable existing he ha
  obtain ⟨-, history, -, rfl⟩ := promote_eq_ok hk
  rw [applyUpdate_eq, hu]
  simp only [hk, Except.map]
  exact ⟨_, rfl, h.desired, rfl, rfl⟩

/-- The record takes over what an attempt reports.  As long as it is not active it notes the setup
steps that took effect, and can be attempted again; once it is active both steps took effect. -/
lemma takes (h : i.CanActivate) {generate : Project.Generator} {c : Call}
    {u : StatusUpdate} {e e' : Environment} {log : List Entry} {took : List Effect}
    (hc : c.integration = i) (hrevision : c.revision = i.targetRevision)
    (hattempt : Activation.Attempted generate c e u e' log)
    (ht : Activation.Tracks (resourceName i) e i.stepsDone took) :
    ∃ j steps, i.applyUpdate u c.clock = .ok j ∧ j.desired = some .active ∧
      Activation.Tracks (resourceName i) e' steps (took ++ effects log) ∧
      ((j.current ≠ some .active ∧ j.CanActivate ∧ j.stepsDone = steps ∧
          i.stepsDone <+: j.stepsDone) ∨
        (j.current = some .active ∧ j.stepsDone = [] ∧ SetupSteps.provisioning ∈ steps)) := by
  subst hc
  have htoken := h.hasToken c.clock
  obtain ⟨steps, ht', ⟨hstate, hnone, hdone, hgrown⟩ | ⟨hstate, hdone, hnoted⟩⟩ :=
    hattempt.tracks htoken ht
  · obtain ⟨j, happly, hcan, hcurrent, hsteps⟩ := h.of_report hnone c.clock
    refine ⟨j, steps, happly, hcan.desired, ht', Or.inl ⟨?_, hcan, hsteps.trans hdone, ?_⟩⟩
    · intro hactive
      exact hstate (Option.some.inj (hcurrent.symm.trans hactive))
    · rwa [hsteps, hdone]
  · obtain ⟨r, hr⟩ := hattempt.exists_promoted hstate htoken
    obtain ⟨hspec, hversion⟩ := hattempt.of_promoted hr
    rw [hrevision] at hspec hversion
    obtain ⟨j, happly, hdesired, hcurrent, hsteps⟩ := h.of_promotion hr hversion hspec c.clock
    refine ⟨j, steps, happly, hdesired, ht', Or.inr ⟨?_, hsteps.trans hdone, hnoted⟩⟩
    rw [hcurrent, hstate]

end Integration.CanActivate

namespace Course

open Activation (Tracks)
open Worker (settle)

variable {generate : Project.Generator} {id : IntegrationId} {name : String} {c : Course}

/-- The notes on the record agree with the backends and with the log so far; but an integration that
is active has none. -/
structure OnTrack (id : IntegrationId) (name : String) (c : Course) : Prop extends InOrder c where
  works : ∀ call, c.site.store.faults call = 0
  tracks : ∃ i steps, c.record? id = some i ∧ resourceName i = name ∧
    i.desired = some .active ∧ Tracks name c.site.environment steps (effects c.log) ∧
    (i.current ≠ some .active → i.CanActivate ∧ i.stepsDone = steps)

/-- What a turn does to the notes on the record: it adds to them, or the integration comes to be
active and both setup steps took effect. -/
def Progresses (name : String) (i j : Integration) (c' : Course) : Prop :=
  (i.stepsDone <+: j.stepsDone ∧ (j.current = some .active → i.current = some .active)) ∨
    (i.current ≠ some .active ∧ j.current = some .active ∧ j.stepsDone = [] ∧
      effects c'.log = [.push name, .create name] ∧
      c'.site.environment.BuildsFromRepository name)

namespace OnTrack

/-- The log of an attempt comes after the logs before it. -/
lemma effects_log {c' : Course} {r : Round} (hrounds : c'.rounds = c.rounds ++ [r]) :
    effects c'.log = effects c.log ++ effects r.log := by
  simp [log, hrounds]

/-- A store that works takes over whatever is reported, and still works. -/
lemma taken (h : c.OnTrack id name) {c' : Course} {i : Integration} {u : StatusUpdate}
    {clock : Timestamp} (hi : c.record? id = some i)
    (hstore : c'.site.store = (settle c.site.store clock id (.report u)).2) :
    (∀ call, c'.site.store.faults call = 0) ∧
      ∀ j, i.applyUpdate u clock = .ok j → c'.record? id = some j := by
  refine ⟨fun call => ?_, fun j hj => ?_⟩
  · have hle := (Worker.amends_settle h.keyed clock id (.report u)).faults call
    rw [h.works call, ← hstore] at hle
    omega
  · rw [record?, hstore]
    exact Worker.settle_of_applyUpdate (h.works .fetch) (h.works .update) hi (h.keyed id i hi) hj

lemma attempt (h : c.OnTrack id name) (clock : Timestamp) :
    (c.turn generate id (.attempt clock)).OnTrack id name ∧ ∃ i j, c.record? id = some i ∧
      (c.turn generate id (.attempt clock)).record? id = some j ∧
      Progresses name i j (c.turn generate id (.attempt clock)) := by
  obtain ⟨i, steps, hi, hname, hdesired, htracks, hwaits⟩ := h.tracks
  have horder : (c.turn generate id (.attempt clock)).InOrder := h.toInOrder.turn _
  have hturned : Turned generate id c clock (c.turn generate id (.attempt clock)) :=
    turned_attempt h.idle clock
  generalize c.turn generate id (.attempt clock) = c' at horder hturned ⊢
  cases hturned with
  | refused hno hrecords hfaults henvironment hrounds =>
    have hj : c'.record? id = some i := by rw [record?, Store.record?, hrecords]; exact hi
    refine ⟨⟨horder, fun call => ?_, i, steps, hj, hname, hdesired, ?_, hwaits⟩, i, i, hi, hj,
      Or.inl ⟨List.prefix_rfl, fun hactive => hactive⟩⟩
    · have hle := hfaults call
      rw [h.works call] at hle
      omega
    · rw [henvironment, log, hrounds]
      exact htracks
  | @called i' u log hi' _ hunconverged hattempt hstore hrounds =>
    obtain rfl : i = i' := Option.some.inj (hi.symm.trans hi')
    subst hname
    have hcurrent : i.current ≠ some .active := by
      intro hactive
      simp [Integration.isConverged, hactive, hdesired, State.satisfies] at hunconverged
    -- a record that is not active yet notes what took effect, so the attempt goes on from there
    obtain ⟨hcan, rfl⟩ := hwaits hcurrent
    obtain ⟨j, steps, happly, hdesired', htracks', hcases⟩ := hcan.takes rfl rfl hattempt htracks
    obtain ⟨hworks, htaken⟩ := h.taken hi hstore
    have hj : c'.record? id = some j := htaken j happly
    have hname := resourceName_of_sameOwn (Integration.sameOwn_applyUpdate happly)
    rw [← effects_log hrounds] at htracks'
    rcases hcases with ⟨hinactive, hcan', hsteps, hgrown⟩ | ⟨hactive, hsteps, hnoted⟩
    · exact ⟨⟨horder, hworks, j, steps, hj, hname, hdesired', htracks', fun _ => ⟨hcan', hsteps⟩⟩,
        i, j, hi, hj, Or.inl ⟨hgrown, fun hactive => absurd hactive hinactive⟩⟩
    · obtain ⟨htook, hbuilds⟩ := htracks'.of_mem_provisioning hnoted
      exact ⟨⟨horder, hworks, j, steps, hj, hname, hdesired', htracks',
        fun hinactive => absurd hactive hinactive⟩,
        i, j, hi, hj, Or.inr ⟨hcurrent, hactive, hsteps, htook, hbuilds⟩⟩

/-- What a turn does to a course on track, if the backends spare the name and nobody else writes. -/
theorem turn (h : c.OnTrack id name) {t : Turn} (hspares : t.Spares name) (ht : t.SparesStore) :
    (c.turn generate id t).OnTrack id name ∧ ∃ i j, c.record? id = some i ∧
      (c.turn generate id t).record? id = some j ∧ Progresses name i j (c.turn generate id t) := by
  cases t with
  | attempt clock => exact h.attempt clock
  | backends change =>
    obtain ⟨i, steps, hi, hname, hdesired, htracks, hwaits⟩ := h.tracks
    refine ⟨⟨h.toInOrder.turn _, h.works, i, steps, hi, hname, hdesired, ?_, hwaits⟩, i, i, hi, hi,
      Or.inl ⟨List.prefix_rfl, fun hactive => hactive⟩⟩
    exact htracks.of_spares (hspares c.site.environment)
  | failStore call times => exact False.elim ht
  | edit draft steps => exact False.elim ht

end OnTrack

/-- **Setup steps take effect once, however many attempts it takes.**  A record that can be
activated is attempted again and again.  Between the attempts the backends may come to fail and
deployments to be ready, and the clock moves, but nobody else writes the record.  Then the requests
that took effect are one push followed by one creation, or as much of that as was done so far; the
steps on the record are added to until a promotion clears them; and when the integration comes to be
active, the push and the creation took effect, and the deployment is built from the repository that
was pushed. -/
theorem setUp_once (generate : Project.Generator) {start : Course} (hstart : start.InOrder)
    (hworks : ∀ call, start.site.store.faults call = 0) (hrounds : start.rounds = [])
    {i₀ : Integration} (hi₀ : start.record? id = some i₀) (hcan : i₀.CanActivate)
    (hsteps : i₀.stepsDone = []) {ts : List Turn} {t : Turn}
    (hspares : ∀ u ∈ ts ++ [t], u.Spares (resourceName i₀))
    (hstore : ∀ u ∈ ts ++ [t], u.SparesStore) :
    let name := resourceName i₀
    let c := start.turns generate id ts
    let c' := start.turns generate id (ts ++ [t])
    effects c'.log <+: [.push name, .create name] ∧
      ∃ i j, c.record? id = some i ∧ c'.record? id = some j ∧ Progresses name i j c' := by
  intro name c c'
  have hfirst : start.OnTrack id name := by
    refine ⟨hstart, hworks, i₀, [], hi₀, rfl, hcan.desired, ?_, fun _ => ⟨hcan, hsteps⟩⟩
    rw [log, hrounds]
    exact .untouched
  have hkeeps : ∀ (c : Course) (t : Turn), t.Spares name ∧ t.SparesStore →
      c.OnTrack id name → (c.turn generate id t).OnTrack id name :=
    fun _ _ ht h => (h.turn ht.1 ht.2).1
  have hbefore : c.OnTrack id name := turns_invariant generate id hkeeps hfirst fun u hu =>
    ⟨hspares u (List.mem_append_left _ hu), hstore u (List.mem_append_left _ hu)⟩
  have hlast : t ∈ ts ++ [t] := List.mem_append_right _ List.mem_cons_self
  have hc' : c' = c.turn generate id t := turns_append generate id start ts t
  obtain ⟨hafter, i, j, hi, hj, hprogress⟩ := hbefore.turn (hspares t hlast) (hstore t hlast)
  rw [← hc'] at hafter hj hprogress
  obtain ⟨-, steps, -, -, -, htracks, -⟩ := hafter.tracks
  exact ⟨htracks.took_prefix, i, j, hi, hj, hprogress⟩

/-! ## Three attempts -/

/-- The next creation of a deployment fails. -/
def failCreate (e : Environment) : Environment :=
  { e with provisioner := e.provisioner.failNext .create (.failed "create" "quota exceeded") }

lemma spares_failCreate (name : String) (e : Environment) : e.Spares name (failCreate e) :=
  ⟨rfl, rfl, fun m hm => ⟨m.readyReplicas, hm⟩⟩

/-- The first attempt pushes and cannot create, and the second creates and has to wait. -/
def retrying : List Turn :=
  [.backends failCreate, .attempt draftRecord.createdAt, .attempt draftRecord.createdAt,
    .backends (Environment.markReady "orders-sync")]

lemma canActivate_draftRecord : draftRecord.CanActivate := by
  refine ⟨rfl, ⟨_, rfl, rfl⟩, fun r hr _ => ?_⟩
  simp [Integration.revision?, draftRecord] at hr

/-- The third attempt brings the integration to life, with one push and one creation in all. -/
theorem retrying_activates : ∃ j, (draftCourse.turns Project.generator "x"
      (retrying ++ [.attempt draftRecord.createdAt])).record? "x" = some j ∧
    j.current = some .active ∧
    effects (draftCourse.turns Project.generator "x"
        (retrying ++ [.attempt draftRecord.createdAt])).log
      = [.push (resourceName draftRecord), .create (resourceName draftRecord)] := by
  have hturns : ∀ t ∈ retrying ++ [.attempt draftRecord.createdAt],
      t.Spares (resourceName draftRecord) ∧ t.SparesStore := by
    intro t ht
    simp only [retrying, List.cons_append, List.nil_append, List.mem_cons, List.not_mem_nil,
      or_false] at ht
    rcases ht with rfl | rfl | rfl | rfl | rfl
    · exact ⟨spares_failCreate _, trivial⟩
    · exact ⟨trivial, trivial⟩
    · exact ⟨trivial, trivial⟩
    · exact ⟨Environment.spares_markReady _ _, trivial⟩
    · exact ⟨trivial, trivial⟩
  obtain ⟨-, i, j, hi, hj, hprogress⟩ := setUp_once Project.generator inOrder_draftCourse
    (fun _ => rfl) rfl (rfl : draftCourse.record? "x" = some draftRecord) canActivate_draftRecord
    rfl (fun t ht => (hturns t ht).1) (fun t ht => (hturns t ht).2)
  have hwaits : ((draftCourse.turns Project.generator "x" retrying).record? "x").all
      (fun i => i.current != some .active) = true := by decide +kernel
  have hruns : ((draftCourse.turns Project.generator "x"
      (retrying ++ [.attempt draftRecord.createdAt])).record? "x").all
      (fun j => j.current == some .active) = true := by decide +kernel
  have hcurrent : i.current ≠ some .active := by simpa [hi] using hwaits
  have hactive : j.current = some .active := by simpa [hj] using hruns
  rcases hprogress with ⟨-, hbefore⟩ | ⟨-, -, -, htook, -⟩
  · exact absurd (hbefore hactive) hcurrent
  · exact ⟨j, hj, hactive, htook⟩

end Course

end Convergence
