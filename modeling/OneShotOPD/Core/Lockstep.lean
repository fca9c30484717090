import Mathlib.Data.List.Basic
import Mathlib.Tactic.Common

/-!
# Programs that meet in collectives

The processes of a distributed job each run a program of their own and meet in
collective calls.  A collective returns only when every process has entered the
same one, so the job stands still as soon as two processes disagree about the
next call.  This file gives such programs as trees, the joint runs in which all
processes agree at every call, and the rules by which joint runs compose.
-/

namespace OneShotOPD.Lockstep

variable {Op : Type} {Send Recv : Op → Type} {α β σ ι : Type}

/-- A program of one process.  `op` names the collective that is entered,
`send` is what the process contributes, and the rest of the program depends on
what the collective hands back. -/
inductive Prog (Send Recv : Op → Type) (α : Type) where
  | done (value : α)
  | call (op : Op) (send : Send op) (next : Recv op → Prog Send Recv α)

namespace Prog

def bind (prog : Prog Send Recv α) (cont : α → Prog Send Recv β) :
    Prog Send Recv β :=
  match prog with
  | .done value => cont value
  | .call op send next => .call op send fun reply => (next reply).bind cont

instance : Monad (Prog Send Recv) where
  pure := .done
  bind := bind

/-- Enter one collective and return its reply. -/
def enter (op : Op) (send : Send op) : Prog Send Recv (Recv op) :=
  .call op send .done

@[simp]
theorem pure_eq (value : α) : (pure value : Prog Send Recv α) = .done value := rfl

@[simp]
theorem done_bind (value : α) (cont : α → Prog Send Recv β) :
    (Prog.done value : Prog Send Recv α) >>= cont = cont value := rfl

@[simp]
theorem call_bind (op : Op) (send : Send op)
    (next : Recv op → Prog Send Recv α) (cont : α → Prog Send Recv β) :
    Prog.call op send next >>= cont =
      .call op send fun reply => next reply >>= cont := rfl

@[simp]
theorem enter_bind (op : Op) (send : Send op)
    (cont : Recv op → Prog Send Recv β) :
    enter op send >>= cont = .call op send cont := rfl

/-- The calls a single process issues when it is handed the listed replies, and
the value it ends with. -/
inductive Issues : Prog Send Recv α → List ((op : Op) × Recv op) → α → Prop
  | done (value : α) : Issues (.done value) [] value
  | call {op : Op} {send : Send op} {next : Recv op → Prog Send Recv α}
      {reply : Recv op} {replies : List ((op : Op) × Recv op)} {value : α}
      (rest : Issues (next reply) replies value) :
      Issues (.call op send next) (⟨op, reply⟩ :: replies) value

end Prog

variable {Rank : Type}

/-- What each collective hands back to every process, computed from the
contributions of all of them. -/
abbrev Exchange (Send Recv : Op → Type) (Rank : Type) :=
  (op : Op) → (Rank → Send op) → Rank → Recv op

/-- All processes run to completion and agree at every call.  There is no rule
for processes that stand at different calls, or for a process that has returned
while another still waits: such a job has no joint run. -/
inductive Joint (exchange : Exchange Send Recv Rank) :
    (Rank → Prog Send Recv α) → List Op → (Rank → α) → Prop
  | done {progs : Rank → Prog Send Recv α} {values : Rank → α}
      (hprogs : ∀ rank, progs rank = .done (values rank)) :
      Joint exchange progs [] values
  | call {progs : Rank → Prog Send Recv α} {op : Op} {send : Rank → Send op}
      {next : Rank → Recv op → Prog Send Recv α} {trace : List Op}
      {values : Rank → α}
      (hprogs : ∀ rank, progs rank = .call op (send rank) (next rank))
      (rest : Joint exchange (fun rank => next rank (exchange op send rank))
        trace values) :
      Joint exchange progs (op :: trace) values

namespace Joint

variable {exchange : Exchange Send Recv Rank}

theorem pure (values : Rank → α) :
    Joint exchange (fun rank => .done (values rank)) [] values :=
  .done fun _ => rfl

/-- One collective, entered by every process. -/
theorem enter (op : Op) (send : Rank → Send op) :
    Joint exchange (fun rank => Prog.enter op (send rank)) [op]
      (exchange op send) :=
  .call (fun _ => rfl) (.done fun _ => rfl)

theorem bind {progs : Rank → Prog Send Recv α}
    {cont : Rank → α → Prog Send Recv β} {first second : List Op}
    {middle : Rank → α} {values : Rank → β}
    (hfirst : Joint exchange progs first middle)
    (hsecond : Joint exchange (fun rank => cont rank (middle rank)) second
      values) :
    Joint exchange (fun rank => progs rank >>= cont rank) (first ++ second)
      values := by
  induction hfirst with
  | done hprogs => simpa [hprogs] using hsecond
  | @call progs op send next trace middle hprogs _ ih =>
      have hcall : ∀ rank, progs rank >>= cont rank =
          .call op (send rank) fun reply => next rank reply >>= cont rank := by
        intro rank
        simp [hprogs rank]
      exact .call hcall (ih hsecond)

/-- Loop rule.  When every iteration is a joint run from any states, so is the
whole loop, and its calls are the calls of the iterations in order. -/
theorem foldlM (body : Rank → σ → ι → Prog Send Recv σ)
    (calls : ι → List Op) (step : Rank → σ → ι → σ) (items : List ι)
    (hbody : ∀ item ∈ items, ∀ states : Rank → σ,
      Joint exchange (fun rank => body rank (states rank) item) (calls item)
        (fun rank => step rank (states rank) item))
    (states : Rank → σ) :
    Joint exchange (fun rank => items.foldlM (body rank) (states rank))
      (items.flatMap calls) (fun rank => items.foldl (step rank) (states rank)) := by
  induction items generalizing states with
  | nil => exact .pure states
  | cons item items ih =>
      simp only [List.foldlM_cons, List.flatMap_cons, List.foldl_cons]
      exact (hbody item (by simp) states).bind
        (ih (fun other hother => hbody other (by simp [hother])) _)

/-- Loop rule for states that all processes derive from a shared one, when the calls
of an iteration are known. -/
theorem foldlM_shared_calls {τ : Type} (body : Rank → σ → ι → Prog Send Recv σ)
    (view : Rank → τ → σ) (step : τ → ι → τ) (calls : ι → List Op) (items : List ι)
    (hbody : ∀ item ∈ items, ∀ shared,
      Joint exchange (fun rank => body rank (view rank shared) item) (calls item)
        (fun rank => view rank (step shared item)))
    (shared : τ) :
    Joint exchange (fun rank => items.foldlM (body rank) (view rank shared))
      (items.flatMap calls) (fun rank => view rank (items.foldl step shared)) := by
  induction items generalizing shared with
  | nil => exact .pure fun rank => view rank shared
  | cons item items ih =>
      rw [List.flatMap_cons]
      exact (hbody item (by simp) shared).bind
        (ih (fun other hother => hbody other (by simp [hother])) (step shared item))

/-- Loop rule for states that all processes derive from a shared one. -/
theorem foldlM_shared {τ : Type} (body : Rank → σ → ι → Prog Send Recv σ)
    (view : Rank → τ → σ) (step : τ → ι → τ) (items : List ι)
    (hbody : ∀ item ∈ items, ∀ shared, ∃ trace,
      Joint exchange (fun rank => body rank (view rank shared) item) trace
        (fun rank => view rank (step shared item)))
    (shared : τ) :
    ∃ trace, Joint exchange (fun rank => items.foldlM (body rank) (view rank shared)) trace
      (fun rank => view rank (items.foldl step shared)) := by
  induction items generalizing shared with
  | nil => exact ⟨[], .pure fun rank => view rank shared⟩
  | cons item items ih =>
      obtain ⟨first, hfirst⟩ := hbody item (by simp) shared
      obtain ⟨second, hsecond⟩ :=
        ih (fun other hother => hbody other (by simp [hother])) (step shared item)
      exact ⟨first ++ second, hfirst.bind hsecond⟩

/-- A job has at most one joint run. -/
theorem unique [Nonempty Rank] {progs : Rank → Prog Send Recv α}
    {left right : List Op} {leftValues rightValues : Rank → α}
    (hleft : Joint exchange progs left leftValues)
    (hright : Joint exchange progs right rightValues) :
    left = right ∧ leftValues = rightValues := by
  obtain ⟨witness⟩ := ‹Nonempty Rank›
  induction hleft generalizing right rightValues with
  | @done progs leftValues hdone =>
      cases hright with
      | done hprogs =>
          refine ⟨rfl, funext fun rank => ?_⟩
          exact Prog.done.inj ((hdone rank).symm.trans (hprogs rank))
      | call hprogs _ =>
          cases (hdone witness).symm.trans (hprogs witness)
  | @call progs op send next trace leftValues hcall _ ih =>
      cases hright with
      | done hprogs =>
          cases (hcall witness).symm.trans (hprogs witness)
      | @call _ op' send' next' trace' _ hprogs rest =>
          have heq := fun rank => (hcall rank).symm.trans (hprogs rank)
          obtain rfl : op = op' := (Prog.call.inj (heq witness)).1
          obtain rfl : send = send' :=
            funext fun rank => eq_of_heq (Prog.call.inj (heq rank)).2.1
          obtain rfl : next = next' :=
            funext fun rank => eq_of_heq (Prog.call.inj (heq rank)).2.2
          obtain ⟨htrace, hvalues⟩ := ih rest
          exact ⟨congrArg _ htrace, hvalues⟩

/-- In a joint run every single process issues exactly the calls of the trace,
in its order. -/
theorem issues {progs : Rank → Prog Send Recv α} {trace : List Op}
    {values : Rank → α} (hjoint : Joint exchange progs trace values)
    (rank : Rank) :
    ∃ replies : List ((op : Op) × Recv op),
      replies.map Sigma.fst = trace ∧
        (progs rank).Issues replies (values rank) := by
  induction hjoint with
  | done hprogs => exact ⟨[], rfl, hprogs rank ▸ .done _⟩
  | @call progs op send next trace values hprogs _ ih =>
      obtain ⟨replies, htrace, hissues⟩ := ih
      exact ⟨⟨op, exchange op send rank⟩ :: replies, by simp [htrace],
        hprogs rank ▸ .call hissues⟩

end Joint

end OneShotOPD.Lockstep
