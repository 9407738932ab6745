import Convergence.Proofs.Backend.Plan
/-!
# Requests that are refused

A request may be refused with an error.  `Plan.errors` are the errors of a plan while it runs, and
`Plan.accounts_run` says that the backends have counted the requests in its log and no others.

A plan gives up at the first refusal if it then ends, with the error of the refusal, and ends with
no other error.  A run of such a plan gets through with all its requests granted, or the last of
them, and only the last, is refused (`Plan.GivesUp.ended`).
-/

namespace Convergence

/-- The error of an answer, told with its origin. -/
def refusal {ε α : Type} (origin : ε → ReconcileError) : Except ε α → Option ReconcileError
  | .error e => some (origin e)
  | .ok _ => none

namespace BackendRequest

/-- The error with which a request is refused, if it is. -/
def error? : (q : BackendRequest) → q.Answer → Option ReconcileError
  | .secret, _ => none
  | .webhookUrl _ _, a => refusal .provisioning a
  | .push _ _ _ _, a => refusal .sourceControl a
  | .cloneUrl _, a => refusal .sourceControl a
  | .create _, a => refusal .provisioning a
  | .isScaled _, a => refusal .provisioning a

lemma granted_eq (q : BackendRequest) (a : q.Answer) : q.granted a = (q.error? a).isNone := by
  cases q with
  | secret => rfl
  | _ => rcases a with _ | _ <;> rfl

/-- The operation of the provisioner that is called. -/
def call? : BackendRequest → Option ProvisionCall
  | .webhookUrl _ _ => some .webhookUrl
  | .create _ => some .create
  | .isScaled _ => some .isScaled
  | _ => none

/-- Files are to be pushed. -/
def isPush : BackendRequest → Bool
  | .push _ _ _ _ => true
  | _ => false

/-- The provisioner counts the request if it is a call of the operation. -/
lemma calls_perform (q : BackendRequest) (e : Environment) (call : ProvisionCall) :
    (q.perform e).2.provisioner.calls call
      = e.provisioner.calls call + if q.call? = some call then 1 else 0 := by
  cases q with
  | webhookUrl d key =>
    have hcount := e.provisioner.calls_webhookUrl d key call
    simpa [perform, call?, @eq_comm _ call] using hcount
  | create d =>
    have hcount := e.provisioner.calls_create d call
    simpa [perform, call?, @eq_comm _ call] using hcount
  | isScaled d =>
    have hcount := e.provisioner.calls_isScaled d call
    simpa [perform, call?, @eq_comm _ call] using hcount
  | _ => rfl

/-- Source control counts the request if it is a push. -/
lemma pushes_perform (q : BackendRequest) (e : Environment) :
    (q.perform e).2.sourceControl.pushes
      = e.sourceControl.pushes + if q.isPush = true then 1 else 0 := by
  cases q with
  | push repo commit files address =>
    cases hfault : e.sourceControl.gate.fault <;>
      simp [perform, SourceControl.push, Gate.enter, hfault, SourceControl.pushes, isPush]
  | _ => rfl

end BackendRequest

/-- A log accounts for what was asked of the backends: they have counted its requests, and made the
commits of its pushes. -/
structure Environment.Accounts (e : Environment) (log : List Entry) (e' : Environment) : Prop where
  calls : ∀ call, e'.provisioner.calls call
    = e.provisioner.calls call + log.countP (·.request.call? = some call)
  pushes : e'.sourceControl.pushes = e.sourceControl.pushes + log.countP (·.request.isPush)
  commits : ∀ repo, e'.commits repo = e.commits repo + (effects log).count (.push repo)

namespace Plan

variable {α β γ δ : Type}

/-- The errors of a plan, in order. -/
def errors : Plan α → Environment → List ReconcileError
  | done _, _ => []
  | ask q next, e =>
    (q.error? (q.perform e).1).toList ++ (next (q.perform e).1).errors (q.perform e).2

lemma errors_bind (p : Plan α) (f : α → Plan β) (e : Environment) :
    (p.bind f).errors e = p.errors e ++ (f (p.run e).1).errors (p.run e).2 := by
  induction p generalizing e with
  | done a => rfl
  | ask q next ih =>
    have hrest := ih (q.perform e).1 (q.perform e).2
    simp only [bind, errors, run, hrest, List.append_assoc]

/-- The log of a plan accounts for what it does. -/
theorem accounts_run (p : Plan α) (e : Environment) : e.Accounts (p.log e) (p.run e).2 where
  calls := by
    intro call
    induction p generalizing e with
    | done a => rfl
    | ask q next ih =>
      have hfirst := q.calls_perform e call
      have hrest := ih (q.perform e).1 (q.perform e).2
      rw [run, log, List.countP_cons, hrest, hfirst]
      simp only [decide_eq_true_eq]
      omega
  pushes := by
    induction p generalizing e with
    | done a => rfl
    | ask q next ih =>
      have hfirst := q.pushes_perform e
      have hrest := ih (q.perform e).1 (q.perform e).2
      rw [run, log, List.countP_cons, hrest, hfirst]
      dsimp only
      omega
  commits := p.commits_run e

/-! ## Giving up -/

/-- The plan asks only for such things.  At the first refusal it ends with the error of the refusal,
and it ends with no other error. -/
inductive GivesUp (asks : BackendRequest → Prop) : Plan (Except ReconcileError α × β) → Prop where
  | ok (a : α) (b : β) : GivesUp asks (done (.ok a, b))
  | ask {q : BackendRequest} {next : q.Answer → Plan (Except ReconcileError α × β)} (hq : asks q)
      (refused : ∀ a err, q.error? a = some err → ∃ b, next a = done (.error err, b))
      (granted : ∀ a, q.error? a = none → GivesUp asks (next a)) : GivesUp asks (ask q next)

/-- What a plan that gives up can come to: its result, its log and its errors. -/
inductive Ended : Except ReconcileError α → List Entry → List ReconcileError → Prop where
  | through {a : α} {log : List Entry} (h : ∀ x ∈ log, x.granted = true) : Ended (.ok a) log []
  | gaveUp {err : ReconcileError} {log : List Entry} {x : Entry} (h : ∀ y ∈ log, y.granted = true)
      (hx : x.granted = false) : Ended (.error err) (log ++ [x]) [err]

namespace Ended

variable {result : Except ReconcileError α} {log l m : List Entry}
  {errs errs' : List ReconcileError}

/-- An error is passed on. -/
lemma error {err : ReconcileError} (h : Ended (.error err : Except ReconcileError α) log errs) :
    Ended (.error err : Except ReconcileError β) log errs := by
  cases h with
  | gaveUp hl hx => exact .gaveUp hl hx

/-- What came before went through. -/
lemma append {a : α} {result : Except ReconcileError β} (h : Ended (.ok a) l errs)
    (h' : Ended result m errs') : Ended result (l ++ m) (errs ++ errs') := by
  cases h with
  | through hl =>
    cases h' with
    | through hm => exact .through fun x hx => (List.mem_append.1 hx).elim (hl x) (hm x)
    | gaveUp hm hx =>
      rw [← List.append_assoc]
      exact .gaveUp (fun y hy => (List.mem_append.1 hy).elim (hl y) (hm y)) hx

/-- Nothing is asked after a refusal. -/
lemma eq_nil_of_refused (h : Ended result log errs) {x : Entry} (hlog : log = l ++ x :: m)
    (hx : x.granted = false) : m = [] := by
  have hearlier : ∀ l' : List Entry, (∀ y ∈ l', y.granted = true) → x ∉ l' := by
    intro l' hl' hmem
    rw [hl' x hmem] at hx
    cases hx
  cases h with
  | through hl => exact absurd (hlog ▸ List.mem_append_cons_self) (hearlier _ hl)
  | @gaveUp err before y hl hy =>
    rcases m.eq_nil_or_concat with hm | ⟨m', z, rfl⟩
    · exact hm
    · have hbefore : before = l ++ x :: m' := by
        rw [List.concat_eq_append, ← List.cons_append, ← List.append_assoc] at hlog
        exact (List.append_inj' hlog rfl).1
      exact absurd (hbefore ▸ List.mem_append_cons_self) (hearlier _ hl)

end Ended

namespace GivesUp

variable {asks : BackendRequest → Prop} {p : Plan (Except ReconcileError α × β)}

/-- A plan gives up if it does so answer by answer. -/
lemma of_answers {q : BackendRequest} {next : q.Answer → Plan (Except ReconcileError α × β)}
    (hq : asks q) (h : ∀ a, (∃ err b, q.error? a = some err ∧ next a = done (.error err, b)) ∨
      (q.error? a = none ∧ (next a).GivesUp asks)) : (Plan.ask q next).GivesUp asks := by
  refine .ask hq (fun a err ha => ?_) fun a ha => ?_
  · rcases h a with ⟨err', b, herror, hnext⟩ | ⟨hnone, -⟩
    · obtain rfl : err' = err := Option.some.inj (herror.symm.trans ha)
      exact ⟨b, hnext⟩
    · cases hnone.symm.trans ha
  · rcases h a with ⟨err', b, herror, -⟩ | ⟨-, hgives⟩
    · cases herror.symm.trans ha
    · exact hgives

lemma asks_of_mem (h : p.GivesUp asks) (e : Environment) : ∀ x ∈ p.log e, asks x.request := by
  induction h generalizing e with
  | ok a b => simp [log]
  | @ask q next hq refused granted ih =>
    intro x hx
    rcases List.mem_cons.1 hx with rfl | hx
    · exact hq
    · cases herror : q.error? (q.perform e).1 with
      | none => exact ih _ herror _ x hx
      | some err =>
        obtain ⟨b, hnext⟩ := refused _ err herror
        rw [hnext] at hx
        cases hx

/-- A plan that gives up comes to one of the cases. -/
theorem ended (h : p.GivesUp asks) (e : Environment) :
    Ended (p.run e).1.1 (p.log e) (p.errors e) := by
  induction h generalizing e with
  | ok a b => exact .through (by simp [log])
  | @ask q next hq refused granted ih =>
    have hgranted := q.granted_eq (q.perform e).1
    simp only [run, log, errors, hgranted]
    cases herror : q.error? (q.perform e).1 with
    | none =>
      have hfirst : Ended (.ok ()) [(⟨q, true⟩ : Entry)] [] := .through (by simp)
      exact hfirst.append (ih _ herror _)
    | some err =>
      obtain ⟨b, hnext⟩ := refused _ err herror
      rw [hnext]
      show Ended (.error err) ([] ++ [⟨q, false⟩]) [err]
      exact .gaveUp (by simp) rfl

end GivesUp

end Plan

end Convergence
