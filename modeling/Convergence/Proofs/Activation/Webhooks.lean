import Convergence.Proofs.Activation.SetUpOnce
/-!
# Whether the webhook carries the secret of the deployment

Every attempt makes up a secret.  A push registers a webhook with it, and a creation hands it to the
deployment.  If both take effect in one attempt, webhook and deployment agree.  But the setup steps
may take effect in different attempts, and the secret of the first is not kept for the second.

The main results are

* `Sourced.concat`: the webhook carries the secret of the last attempt that pushed, and the
  deployment holds that of the last attempt that created it;
* `guarded_iff`: so once both steps are noted they agree exactly if these are the same attempt;
* `not_forall_guarded`: they need not be.
-/

namespace Convergence

/-! ## Secrets and webhooks -/

/-- Addresses with different secrets are different. -/
lemma Provisioner.webhookAddress_inj {p : Provisioner} {name secret other : String}
    (h : p.webhookAddress name secret = p.webhookAddress name other) : secret = other := by
  simpa [webhookAddress, String.append_assoc, ← String.toList_inj] using h

namespace Environment

/-- The webhook of the repository of a name. -/
def hook? (e : Environment) (name : String) : Option String :=
  (e.sourceControl.repository? name).bind (·.webhookUrl)

/-- The secret that the deployment of a name holds. -/
def secret? (e : Environment) (name : String) : Option String :=
  (e.provisioner.deployment? name).bind (·.webhookSecret)

/-- The webhook of the repository is the one with the secret that the deployment holds. -/
def Guarded (e : Environment) (name : String) : Prop :=
  ∃ secret, e.secret? name = some secret ∧
    e.hook? name = some (e.provisioner.webhookAddress name secret)

/-- The webhook with the secret that is made up as the one of this number. -/
def hookAt (e : Environment) (name : String) (number : Nat) : String :=
  e.provisioner.webhookAddress name (e.secretAt number)

variable {e e' : Environment} {name : String}

lemma hookAt_inj (h : Function.Injective e.secretAt) {m n : Nat}
    (heq : e.hookAt name m = e.hookAt name n) : m = n :=
  h (Provisioner.webhookAddress_inj heq)

lemma KeepsSecrets.hookAt (h : e.KeepsSecrets e') (name : String) (number : Nat) :
    e'.hookAt name number = e.hookAt name number := by
  rw [Environment.hookAt, h.secretAt, h.address, Environment.hookAt]

lemma Spares.hook? (h : e.Spares name e') : e'.hook? name = e.hook? name := by
  rw [Environment.hook?, h.repository, Environment.hook?]

lemma Spares.secret? (h : e.Spares name e') {secret : String}
    (hsecret : e.secret? name = some secret) : e'.secret? name = some secret := by
  obtain ⟨m, hm, hheld⟩ := Option.bind_eq_some_iff.1 hsecret
  obtain ⟨ready, hready⟩ := h.deployment m hm
  simp [Environment.secret?, hready, hheld]

end Environment

/-! ## What one attempt does to them -/

namespace Activation

variable {generate : Project.Generator} {c : Call} {d : Descriptor} {n n' : Notes}
  {e e' : Environment} {log : List Entry} {name address secret : String}

/-- A push leaves this webhook, and a creation this secret; without them what there was stays. -/
structure Hooks (name address secret : String) (e : Environment) (log : List Entry)
    (e' : Environment) : Prop where
  hook : e'.hook? name = if .push name ∈ effects log then some address else e.hook? name
  secret : e'.secret? name = if .create name ∈ effects log then some secret else e.secret? name

lemma Hooks.append {e₁ : Environment} {l m : List Entry} (h : Hooks name address secret e l e₁)
    (h' : Hooks name address secret e₁ m e') : Hooks name address secret e (l ++ m) e' := by
  have hpush : .push name ∈ effects (l ++ m) ↔ .push name ∈ effects l ∨ .push name ∈ effects m := by
    rw [effects_append, List.mem_append]
  have hcreate : .create name ∈ effects (l ++ m) ↔
      .create name ∈ effects l ∨ .create name ∈ effects m := by
    rw [effects_append, List.mem_append]
  refine ⟨?_, ?_⟩
  · simp only [h'.hook, h.hook, hpush]
    split <;> simp_all
  · simp only [h'.secret, h.secret, hcreate]
    split <;> simp_all

lemma hooks_of_holdsSame (hsame : e.HoldsSame e') (hlog : effects log = []) :
    Hooks name address secret e log e' := by
  refine ⟨?_, ?_⟩
  · rw [hlog, if_neg List.not_mem_nil, (hsame.spares name).hook?]
  · rw [hlog, if_neg List.not_mem_nil, Environment.secret?, Provisioner.deployment?,
      hsame.deployments, Environment.secret?, Provisioner.deployment?]

lemma RepositorySetUp.hooks {x : Except ReconcileError Unit × Notes}
    (h : RepositorySetUp generate c d n e x e' log) (hd : d.webhookSecret = some secret) :
    Hooks d.name (e.provisioner.webhookAddress d.name secret) secret e log e' := by
  cases h with
  | skipped hdone => exact hooks_of_holdsSame (.refl e) rfl
  | failed hdone hsame hlog => exact hooks_of_holdsSame hsame hlog
  | pushed hdone hfiles hrepositories hurl hdeployments hlog =>
    rw [hd, Option.getD_some] at hrepositories
    refine ⟨?_, ?_⟩
    · rw [hlog, if_pos List.mem_cons_self, Environment.hook?, SourceControl.repository?,
        hrepositories, Dict.find?_insert_self]
      rfl
    · rw [hlog, if_neg (by simp), Environment.secret?, Provisioner.deployment?, hdeployments,
        Environment.secret?, Provisioner.deployment?]

lemma DeploymentSetUp.hooks {x : Except ReconcileError Unit × Notes}
    (h : DeploymentSetUp d n e x e' log) (hd : d.webhookSecret = some secret) :
    Hooks d.name address secret e log e' := by
  cases h with
  | skipped hdone => exact hooks_of_holdsSame (.refl e) rfl
  | failed hdone hsame hlog => exact hooks_of_holdsSame hsame hlog
  | created hdone hurl hdeployments hsource hlog =>
    refine ⟨?_, ?_⟩
    · rw [hlog, if_neg (by simp), Environment.hook?, hsource, Environment.hook?]
    · rw [hlog, if_pos List.mem_cons_self, Environment.secret?, Provisioner.deployment?,
        hdeployments, Dict.find?_insert_self]
      exact hd

lemma Converged.hooks {x : Except ReconcileError Bool × Notes}
    (h : Converged generate c d n e x e' log) (hd : d.webhookSecret = some secret) :
    Hooks d.name (e.provisioner.webhookAddress d.name secret) secret e log e' := by
  cases h with
  | unpushed h => exact h.hooks hd
  | uncreated h₁ h₂ => exact (h₁.hooks hd).append (h₂.hooks hd)
  | asked h₁ h₂ hsame hlog =>
    exact ((h₁.hooks hd).append (h₂.hooks hd)).append (hooks_of_holdsSame hsame hlog)

/-- Both steps of an attempt use the secret that is made up for it. -/
lemma Attempted.hooks {u : StatusUpdate} (h : Attempted generate c e u e' log) :
    Hooks (resourceName c.integration) (e.hookAt (resourceName c.integration) e.minted)
      (e.secretAt e.minted) e log e' := by
  cases h with
  | untried hno => exact hooks_of_holdsSame (.refl e) rfl
  | @tried token result n' e' log htoken hvalid h =>
    have hmint : Hooks (resourceName c.integration)
        (e.hookAt (resourceName c.integration) e.minted) (e.secretAt e.minted) e
        [⟨.secret, true⟩] e.mint.2 := hooks_of_holdsSame ⟨rfl, rfl, rfl⟩ rfl
    have hsteps := h.hooks (rfl : _ = some (e.secretAt e.minted))
    rw [descriptor_name] at hsteps
    exact hmint.append hsteps

/-- An attempt keeps secrets and addresses. -/
lemma keepsSecrets_attempt (generate : Project.Generator) (c : Call) (e : Environment) :
    e.KeepsSecrets (attempt generate c e).2 := by
  rw [← run_plan]
  exact (plan generate c).keepsSecrets_run e

/-- An attempt with a usable token uses up a secret. -/
lemma minted_attempt (generate : Project.Generator) (htoken : c.integration.HasToken c.clock)
    (e : Environment) : e.minted < (attempt generate c e).2.minted := by
  obtain ⟨token, htoken, hvalid⟩ := htoken
  have hrest (p : Plan Outcome) : e.minted < (p.run e.mint.2).2.minted :=
    Nat.lt_of_lt_of_le (Nat.lt_succ_self e.minted) (p.keepsSecrets_run e.mint.2).minted
  rw [← run_plan, plan]
  simp only [htoken, hvalid, Bool.false_eq_true, if_false, Plan.run, BackendRequest.perform]
  exact hrest _

/-- An attempt without a usable token has no effect. -/
lemma Attempted.hasToken {u : StatusUpdate} (h : Attempted generate c e u e' log)
    (heffects : effects log ≠ []) : c.integration.HasToken c.clock := by
  cases h with
  | untried hno => exact absurd rfl heffects
  | tried htoken hvalid h => exact ⟨_, htoken, hvalid⟩

end Activation

/-- A change of the backends leaves secrets and addresses alone. -/
def Turn.SparesSecrets : Turn → Prop
  | .backends change => ∀ e : Environment, e.KeepsSecrets (change e)
  | _ => True

namespace Course

/-- The number of the last attempt with an effect. -/
def lastWith? (x : Effect) (rounds : List Round) : Option Nat :=
  ((rounds.zipIdx.filter fun r => x ∈ effects r.1.log).getLast?).map (·.2)

lemma lastWith?_concat (x : Effect) (rounds : List Round) (r : Round) :
    lastWith? x (rounds ++ [r])
      = if x ∈ effects r.log then some rounds.length else lastWith? x rounds := by
  by_cases h : x ∈ effects r.log
  · simp [lastWith?, List.zipIdx_append, List.filter_append, h]
  · simp [lastWith?, List.zipIdx_append, List.filter_append, h]

lemma lastWith?_lt {x : Effect} {rounds : List Round} {k : Nat}
    (h : lastWith? x rounds = some k) : k < rounds.length := by
  obtain ⟨r, hr, rfl⟩ := Option.map_eq_some_iff.1 h
  have hmem : r ∈ rounds.zipIdx := (List.mem_filter.1 (List.mem_of_getLast? hr)).1
  simpa using List.snd_lt_of_mem_zipIdx hmem

lemma isSome_lastWith? {x : Effect} {rounds : List Round}
    (h : ∃ r ∈ rounds, x ∈ effects r.log) : (lastWith? x rounds).isSome := by
  obtain ⟨r, hr, hx⟩ := h
  obtain ⟨k, hk⟩ := List.mem_iff_getElem?.1 hr
  have hmem : (r, k) ∈ rounds.zipIdx.filter fun r => x ∈ effects r.1.log := by
    simp [List.mk_mem_zipIdx_iff_getElem?, hk, hx]
  rw [lastWith?, Option.isSome_map, List.getLast?_isSome]
  exact List.ne_nil_of_mem hmem

/-! ## Where the secrets come from -/

/-- The webhook carries the secret of the last attempt that pushed, and the deployment holds that of
the last attempt that created it; different attempts have different secrets. -/
structure Sourced (name : String) (e : Environment) (rounds : List Round) : Prop where
  distinct : Function.Injective e.secretAt
  pushed : ∀ k, lastWith? (.push name) rounds = some k →
    ∃ n < e.minted, e.hook? name = some (e.hookAt name n)
  created : ∀ l, lastWith? (.create name) rounds = some l →
    ∃ n < e.minted, e.secret? name = some (e.secretAt n)
  agree : ∀ k l m n, lastWith? (.push name) rounds = some k →
    lastWith? (.create name) rounds = some l → e.hook? name = some (e.hookAt name m) →
    e.secret? name = some (e.secretAt n) → (m = n ↔ k = l)

namespace Sourced

variable {name : String} {e e' : Environment} {rounds : List Round}

lemma of_spares (h : Sourced name e rounds) (hs : e.Spares name e') (hkeeps : e.KeepsSecrets e') :
    Sourced name e' rounds := by
  refine ⟨by rw [hkeeps.secretAt]; exact h.distinct, fun k hk => ?_, fun l hl => ?_,
    fun k l m n hk hl hm hn => ?_⟩
  · obtain ⟨n, hlt, hn⟩ := h.pushed k hk
    exact ⟨n, Nat.lt_of_lt_of_le hlt hkeeps.minted, by rw [hs.hook?, hkeeps.hookAt, hn]⟩
  · obtain ⟨n, hlt, hn⟩ := h.created l hl
    exact ⟨n, Nat.lt_of_lt_of_le hlt hkeeps.minted, by rw [hkeeps.secretAt, hs.secret? hn]⟩
  · rw [hs.hook?, hkeeps.hookAt] at hm
    obtain ⟨n', -, hn'⟩ := h.created l hl
    rw [hs.secret? hn', hkeeps.secretAt, Option.some.injEq] at hn
    exact h.agree k l m n hk hl hm (hn'.trans (congrArg some hn))

/-- An attempt uses a secret of its own. -/
lemma concat (h : Sourced name e rounds) {r : Round}
    (hhooks : Activation.Hooks name (e.hookAt name e.minted) (e.secretAt e.minted) e r.log e')
    (hkeeps : e.KeepsSecrets e') (hminted : effects r.log ≠ [] → e.minted < e'.minted) :
    Sourced name e' (rounds ++ [r]) := by
  refine ⟨by rw [hkeeps.secretAt]; exact h.distinct, ?_, ?_, ?_⟩ <;>
    simp only [lastWith?_concat, hhooks.hook, hhooks.secret, hkeeps.hookAt, hkeeps.secretAt]
  · intro k hk
    split at hk
    · next hpush => exact ⟨_, hminted (List.ne_nil_of_mem hpush), by rw [if_pos hpush]⟩
    · next hpush =>
      obtain ⟨n, hlt, hn⟩ := h.pushed k hk
      exact ⟨n, Nat.lt_of_lt_of_le hlt hkeeps.minted, by rwa [if_neg hpush]⟩
  · intro l hl
    split at hl
    · next hcreate => exact ⟨_, hminted (List.ne_nil_of_mem hcreate), by rw [if_pos hcreate]⟩
    · next hcreate =>
      obtain ⟨n, hlt, hn⟩ := h.created l hl
      exact ⟨n, Nat.lt_of_lt_of_le hlt hkeeps.minted, by rwa [if_neg hcreate]⟩
  · -- a step that takes effect now uses the new secret, which is none of those used before
    intro k l m n hk hl hm hn
    by_cases hpush : .push name ∈ effects r.log <;> by_cases hcreate : .create name ∈ effects r.log
    · simp only [hpush, hcreate, if_true, Option.some.injEq] at hk hl hm hn
      have hm := Environment.hookAt_inj h.distinct hm
      have hn := h.distinct hn
      omega
    · simp only [hpush, hcreate, if_true, if_false, Option.some.injEq] at hk hl hm hn
      have hm := Environment.hookAt_inj h.distinct hm
      obtain ⟨n', hlt, hn'⟩ := h.created l hl
      have hn := h.distinct (Option.some.inj (hn'.symm.trans hn))
      have hl := lastWith?_lt hl
      omega
    · simp only [hpush, hcreate, if_true, if_false, Option.some.injEq] at hk hl hm hn
      have hn := h.distinct hn
      obtain ⟨m', hlt, hm'⟩ := h.pushed k hk
      have hm := Environment.hookAt_inj h.distinct (Option.some.inj (hm'.symm.trans hm))
      have hk := lastWith?_lt hk
      omega
    · simp only [hpush, hcreate, if_false] at hk hl hm hn
      exact h.agree k l m n hk hl hm hn

/-- Webhook and deployment agree exactly if both steps took effect in one attempt last. -/
lemma guarded_iff_eq (h : Sourced name e rounds) {k l : Nat}
    (hk : lastWith? (.push name) rounds = some k) (hl : lastWith? (.create name) rounds = some l) :
    e.Guarded name ↔ k = l := by
  obtain ⟨m, -, hm⟩ := h.pushed k hk
  obtain ⟨n, -, hn⟩ := h.created l hl
  rw [← h.agree k l m n hk hl hm hn]
  refine ⟨fun ⟨secret, hsecret, hhook⟩ => ?_, ?_⟩
  · rw [hn, Option.some.injEq] at hsecret
    subst hsecret
    exact Environment.hookAt_inj h.distinct (Option.some.inj (hm.symm.trans hhook))
  · rintro rfl
    exact ⟨_, hn, hm⟩

end Sourced

/-! ## What a run does -/

variable {generate : Project.Generator} {id : IntegrationId} {name : String} {c : Course}

/-- It is known where the secrets come from. -/
structure Hooked (id : IntegrationId) (name : String) (c : Course) : Prop extends
    Truthful id name c where
  sourced : Sourced name c.site.environment c.rounds

namespace Hooked

/-- An attempt uses the secret that is made up for it. -/
lemma of_called (h : c.Hooked id name) {c' : Course} {i : Integration} {u : StatusUpdate}
    {clock : Timestamp} {log : List Entry} (hi : c.record? id = some i)
    (hattempt : Activation.Attempted generate
      (Worker.callOf { c.site with clock } (.activate generate) i) c.site.environment u
      c'.site.environment log)
    (hrounds : c'.rounds = c.rounds ++ [⟨i.targetRevision, log⟩])
    (hended : c'.site.environment = (Activation.attempt generate
      (Worker.callOf { c.site with clock } (.activate generate) i) c.site.environment).2) :
    Sourced name c'.site.environment c'.rounds := by
  have hhooks := hattempt.hooks
  have hmine : resourceName
      (Worker.callOf { c.site with clock } (.activate generate) i).integration = name :=
    h.named i hi
  rw [hmine] at hhooks
  rw [hrounds]
  refine h.sourced.concat hhooks ?_ fun heffects => ?_
  · rw [hended]
    exact Activation.keepsSecrets_attempt ..
  · rw [hended]
    exact Activation.minted_attempt generate (hattempt.hasToken heffects) _

theorem turn (h : c.Hooked id name) {t : Turn} (hspares : t.Spares name)
    (hsecrets : t.SparesSecrets) : (c.turn generate id t).Hooked id name where
  toTruthful := h.toTruthful.turn t
  sourced := by
    cases t with
    | attempt clock =>
      have hturned : Turned generate id c clock (c.turn generate id (.attempt clock)) :=
        turned_attempt h.idle clock
      cases hturned with
      | refused hno hrecords hfaults henvironment hrounds =>
        rw [henvironment, hrounds]
        exact h.sourced
      | called hi hdesired hunconverged hattempt hstore hrounds hended =>
        exact h.of_called hi hattempt hrounds hended
    | backends change =>
      exact h.sourced.of_spares (hspares c.site.environment) (hsecrets c.site.environment)
    | failStore call times => exact h.sourced
    | edit draft steps =>
      rw [rounds_edit, environment_edit]
      exact h.sourced

end Hooked

/-- In a run in which other clients edit draft and steps of a record, it is known where the secrets
come from. -/
theorem hooked_turns (generate : Project.Generator) {start : Course} (hstart : start.InOrder)
    (hrounds : start.rounds = [])
    (hdistinct : Function.Injective start.site.environment.secretAt) {i₀ : Integration}
    (hi₀ : start.record? id = some i₀) (hsteps : i₀.stepsDone = []) {ts : List Turn}
    (hts : ∀ t ∈ ts, t.Spares (resourceName i₀) ∧ t.SparesSecrets) :
    (start.turns generate id ts).Hooked id (resourceName i₀) := by
  have hnone : ∀ x, lastWith? x start.rounds = none := by simp [lastWith?, hrounds]
  have hfirst : start.Hooked id (resourceName i₀) := by
    refine ⟨.of_stepsDone_eq_nil hstart hi₀ hsteps, hdistinct, ?_, ?_, ?_⟩ <;> simp [hnone]
  have hkeeps : ∀ (c : Course) (t : Turn), t.Spares (resourceName i₀) ∧ t.SparesSecrets →
      c.Hooked id (resourceName i₀) → (c.turn generate id t).Hooked id (resourceName i₀) :=
    fun _ _ ht h => h.turn ht.1 ht.2
  exact turns_invariant generate id hkeeps hfirst hts

/-- **Webhook and deployment agree if they were set up together.**  The activation of a record is
attempted again and again, with a secret of its own each time, while calls fail, other clients edit
draft and steps, and nothing else touches repository and deployment.  Once both setup steps are on
the record, both took effect in the run, and the webhook of the repository is the one with the
secret that the deployment holds exactly if the last attempt that pushed is the last that created.
-/
theorem guarded_iff {start : Course} (hstart : start.InOrder) (hrounds : start.rounds = [])
    (hdistinct : Function.Injective start.site.environment.secretAt) {i₀ : Integration}
    (hi₀ : start.record? id = some i₀) (hsteps : i₀.stepsDone = []) {ts : List Turn}
    (hts : ∀ t ∈ ts, t.Spares (resourceName i₀) ∧ t.SparesSecrets) {i : Integration}
    (hi : (start.turns generate id ts).record? id = some i)
    (hpushed : SetupSteps.sourceRepo ∈ i.stepsDone)
    (hcreated : SetupSteps.provisioning ∈ i.stepsDone) :
    let c := start.turns generate id ts
    ∃ k l, lastWith? (.push (resourceName i)) c.rounds = some k ∧
      lastWith? (.create (resourceName i)) c.rounds = some l ∧
      (c.site.environment.Guarded (resourceName i) ↔ k = l) := by
  intro c
  have hend : c.Hooked id (resourceName i₀) :=
    hooked_turns generate hstart hrounds hdistinct hi₀ hsteps hts
  rw [hend.named i hi]
  obtain ⟨k, hk⟩ := Option.isSome_iff_exists.1
    (isSome_lastWith? (hend.noted i hi _ _ .push hpushed))
  obtain ⟨l, hl⟩ := Option.isSome_iff_exists.1
    (isSome_lastWith? (hend.noted i hi _ _ .create hcreated))
  exact ⟨k, l, hk, hl, hend.sourced.guarded_iff_eq hk hl⟩

/-! ## Two steps in two attempts -/

/-- A course with a record to activate and empty backends, in which every secret is another one. -/
def secretCourse : Course :=
  { draftCourse with
    site := { draftCourse.site with
      environment := { secretAt := fun n => String.ofList (List.replicate n 's') } } }

lemma inOrder_secretCourse : secretCourse.InOrder := ⟨rfl, Store.keyed_singleton draftRecord⟩

lemma distinct_secretCourse : Function.Injective secretCourse.site.environment.secretAt := by
  intro m n h
  have hlength := congrArg String.length h
  simpa [secretCourse] using hlength

/-- The first attempt pushes and cannot create, and the second creates. -/
def apart : List Turn :=
  [.backends failCreate, .attempt draftRecord.createdAt, .attempt draftRecord.createdAt]

lemma spares_apart : ∀ t ∈ apart, t.Spares (resourceName draftRecord) ∧ t.SparesSecrets := by
  intro t ht
  simp only [apart, List.mem_cons, List.not_mem_nil, or_false] at ht
  rcases ht with rfl | rfl | rfl
  · exact ⟨spares_failCreate _, fun e => ⟨rfl, Nat.le_refl _, fun _ _ => rfl⟩⟩
  · exact ⟨trivial, trivial⟩
  · exact ⟨trivial, trivial⟩

/-- After both attempts both steps are on the record. -/
lemma apart_noted : ∃ i, (secretCourse.turns Project.generator "x" apart).record? "x" = some i ∧
    SetupSteps.sourceRepo ∈ i.stepsDone ∧ SetupSteps.provisioning ∈ i.stepsDone ∧
    resourceName i = resourceName draftRecord := by
  have hnoted : ((secretCourse.turns Project.generator "x" apart).record? "x").any (fun i =>
      i.stepsDone == [SetupSteps.sourceRepo, SetupSteps.provisioning]) = true := by decide +kernel
  obtain ⟨i, hi, hsteps⟩ := (Option.any_eq_true _ _).1 hnoted
  rw [beq_iff_eq] at hsteps
  have hhooked := hooked_turns Project.generator inOrder_secretCourse rfl
    distinct_secretCourse (rfl : secretCourse.record? "x" = some draftRecord) rfl spares_apart
  exact ⟨i, hi, by simp [hsteps], by simp [hsteps], hhooked.named i hi⟩

/-- The webhook carries the first secret, and the deployment holds the second. -/
theorem apart_unguarded : ∃ i,
    (secretCourse.turns Project.generator "x" apart).record? "x" = some i ∧
    SetupSteps.sourceRepo ∈ i.stepsDone ∧ SetupSteps.provisioning ∈ i.stepsDone ∧
    ¬ (secretCourse.turns Project.generator "x" apart).site.environment.Guarded
      (resourceName i) := by
  obtain ⟨i, hi, hpushed, hcreated, hname⟩ := apart_noted
  obtain ⟨k, l, hk, hl, hiff⟩ := guarded_iff inOrder_secretCourse rfl distinct_secretCourse
    (rfl : secretCourse.record? "x" = some draftRecord) rfl spares_apart hi hpushed hcreated
  have hpush : lastWith? (.push (resourceName draftRecord))
      (secretCourse.turns Project.generator "x" apart).rounds = some 0 := by decide +kernel
  have hcreate : lastWith? (.create (resourceName draftRecord))
      (secretCourse.turns Project.generator "x" apart).rounds = some 1 := by decide +kernel
  refine ⟨i, hi, hpushed, hcreated, fun hguarded => ?_⟩
  have heq : k = l := hiff.1 hguarded
  rw [hname, hpush, Option.some.injEq] at hk
  rw [hname, hcreate, Option.some.injEq] at hl
  omega

/-- It is not so that webhook and deployment always agree once both steps are noted. -/
theorem not_forall_guarded : ¬ ∀ (id : IntegrationId) (start : Course) (i₀ : Integration)
    (ts : List Turn) (i : Integration), start.InOrder → start.rounds = [] →
    Function.Injective start.site.environment.secretAt → start.record? id = some i₀ →
    i₀.stepsDone = [] → (∀ time, i₀.HasToken time) →
    start.site.environment.sourceControl.repository? (resourceName i₀) = none →
    start.site.environment.provisioner.deployment? (resourceName i₀) = none →
    (∀ t ∈ ts, t.Spares (resourceName i₀) ∧ t.SparesSecrets) →
    (start.turns Project.generator id ts).record? id = some i →
    SetupSteps.sourceRepo ∈ i.stepsDone → SetupSteps.provisioning ∈ i.stepsDone →
    (start.turns Project.generator id ts).site.environment.Guarded (resourceName i) := by
  intro hall
  obtain ⟨i, hi, hpushed, hcreated, hname⟩ := apart_noted
  obtain ⟨secret, hsecret, hhook⟩ := hall "x" secretCourse draftRecord apart i inOrder_secretCourse
    rfl distinct_secretCourse rfl rfl (fun _ => ⟨_, rfl, rfl⟩) rfl rfl spares_apart hi hpushed
    hcreated
  have hheld : (secretCourse.turns Project.generator "x" apart).site.environment.secret?
      (resourceName draftRecord) = some "s" := by decide +kernel
  have hregistered : (secretCourse.turns Project.generator "x" apart).site.environment.hook?
      (resourceName draftRecord) ≠ some
        ((secretCourse.turns Project.generator "x"
          apart).site.environment.provisioner.webhookAddress (resourceName draftRecord) "s") := by
    decide +kernel
  rw [hname, hheld, Option.some.injEq] at hsecret
  rw [hname, ← hsecret] at hhook
  exact hregistered hhook

end Course

end Convergence
