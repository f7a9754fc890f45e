import Courier.Backend
import Courier.Proofs.Past

/-!
Any number of calls at once, over one store and one queue. A call goes on by one request at a time,
so that calls interleave at single accesses of the store and the queue, single readings of the clock
and single messages to a provider. Between two requests the clock may move, the store and the queue
may be lost and come back, and workers may lease jobs.
-/
namespace Courier

/-- The program without the events that it logs before its next request. -/
def Prog.quiet {α : Type} : Prog α → Prog α
  | .log _ rest => rest.quiet
  | p => p

/-- The answers that lie with nobody in the pipeline: a fresh identifier, a random number, and what
a provider says to a message. -/
structure Choice where
  id : Uuid
  number : Nat
  delivery : Option (Except EmitError Unit)

namespace Backend

/-- The answer to a request, if it is one that calls make. -/
def answer (b : Backend) (c : Choice) : (r : Request) → Option (Step r.Reply)
  | .freshId => some { reply := c.id, backend := b }
  | .draw bound => if c.number < bound then some { reply := c.number, backend := b } else none
  | .send _ _ _ _ => some { reply := c.delivery, backend := b }
  | r => b.perform r

end Backend

/-- A call: what it was asked to do, and what is left to do. -/
structure Call where
  op : Operation
  rest : Prog op.Result

/-- The call has come to its end or has broken off. -/
def Call.isOver (call : Call) : Bool :=
  match call.rest with
  | .done _ | .abort => true
  | _ => false

structure Pipeline where
  backend : Backend
  calls : List Call
  past : Past

inductive Move where
  | begin (op : Operation)
  /-- The call with that number has its next request answered. -/
  | advance (call : Nat) (c : Choice)
  /-- A worker tries to lease a job, under a token that no lease has had. -/
  | lease (leaseFor : Duration) (token : Uuid)
  | setClock (t : Instant)
  | setAvailable (store queue : Bool)

namespace Pipeline

def initial (clock : Instant) : Pipeline := ⟨⟨.empty, .empty, clock, 0⟩, [], []⟩

def isIdle (s : Pipeline) : Bool := s.calls.all Call.isOver

theorem isOver_of_isIdle {s : Pipeline} (idle : s.isIdle = true) {i : Nat} {call : Call}
    (found : s.calls[i]? = some call) : call.isOver = true :=
  List.all_eq_true.mp idle call (List.mem_of_getElem? found)

def begin? (d : Deployment) (s : Pipeline) (op : Operation) : Option Pipeline :=
  if s.past.permits op then
    some { s with
      calls := s.calls ++ [⟨op, (op.program d).quiet⟩]
      past := s.past ++ [.began op] }
  else none

def advance? (s : Pipeline) (call : Nat) (c : Choice) : Option Pipeline :=
  match s.calls[call]? with
  | some ⟨op, .ask r next⟩ =>
    (s.backend.answer c r).map fun step =>
      { backend := step.backend
        calls := s.calls.set call ⟨op, (next step.reply).quiet⟩
        past := s.past ++ [.answered call r step.reply] }
  | _ => none

def offered (s : Pipeline) : Option Job :=
  ((s.backend.queue.reclaim s.backend.clock).nextVisible s.backend.clock).map Queue.Entry.job

/-- The pipeline with another queue, after a lease was tried that came to `happened`. -/
def leasing (s : Pipeline) (queue : Queue) (happened : Past) : Pipeline :=
  { s with backend := { s.backend with queue }, past := s.past ++ happened }

def lease? (s : Pipeline) (leaseFor : Duration) (token : Uuid) : Option Pipeline :=
  if s.past.leases.any fun lease => lease.token == token then none
  else if s.backend.queue.available then
    match s.backend.queue.tryLease s.backend.clock leaseFor token with
    | (.nothing, queue) => some (s.leasing queue [])
    | (.leased lease, queue) => some (s.leasing queue [.leased lease])
    | (.outOfRange, queue) => some (s.leasing queue (s.offered.toList.map .dropped))
  else some s

def step? (d : Deployment) (s : Pipeline) : Move → Option Pipeline
  | .begin op => s.begin? d op
  | .advance call c => s.advance? call c
  | .lease leaseFor token => s.lease? leaseFor token
  | .setClock t => some { s with backend := { s.backend with clock := t } }
  | .setAvailable store queue =>
    some { s with
      backend := { s.backend with
        store := { s.backend.store with available := store }
        queue := { s.backend.queue with available := queue } } }

/-- The pipeline after some moves, if all of them can be made and are allowed. -/
def run? (d : Deployment) (allowed : Pipeline → Move → Bool) :
    Pipeline → List Move → Option Pipeline
  | s, [] => some s
  | s, m :: rest =>
    if allowed s m then (s.step? d m).bind fun next => next.run? d allowed rest else none

/-- Any calls, any outages, and any clock. -/
def anything (_ : Pipeline) (_ : Move) : Bool := true

/-- Anything but the work of workers. -/
def services (_ : Pipeline) : Move → Bool
  | .begin (.process _) => false
  | _ => true

/-- Notifications are created and reset, workers work on their jobs, and the clock goes forward. -/
def delivery (s : Pipeline) : Move → Bool
  | .begin (.create _) | .begin (.resetFailed _) | .begin (.process _) => true
  | .begin _ => false
  | .setClock t => decide (s.backend.clock ≤ t)
  | _ => true

/-- What can come about by moves of some kind. -/
inductive Reachable (d : Deployment) (allowed : Pipeline → Move → Prop) (clock : Instant) :
    Pipeline → Prop
  | initial : Reachable d allowed clock (initial clock)
  | step {s next : Pipeline} {m : Move} (reached : Reachable d allowed clock s) (may : allowed s m)
      (moved : s.step? d m = some next) : Reachable d allowed clock next

theorem Reachable.run {d : Deployment} {allowed : Pipeline → Move → Bool} {clock : Instant}
    {s final : Pipeline} {moves : List Move}
    (reached : Reachable d (fun s m => allowed s m) clock s)
    (h : s.run? d allowed moves = some final) :
    Reachable d (fun s m => allowed s m) clock final := by
  induction moves generalizing s with
  | nil =>
      cases h
      exact reached
  | cons m rest ih =>
      simp only [run?] at h
      split at h
      · rename_i may
        obtain ⟨next, moved, h⟩ := Option.bind_eq_some_iff.mp h
        exact ih (.step reached may moved) h
      · cases h

/-- The moves that can be made, each with what it comes to. -/
inductive Step (d : Deployment) (s : Pipeline) : Move → Pipeline → Prop
  | begin {op : Operation} (permitted : s.past.permits op) :
      Step d s (.begin op) { s with
        calls := s.calls ++ [⟨op, (op.program d).quiet⟩]
        past := s.past ++ [.began op] }
  | advance {call : Nat} {c : Choice} {op : Operation} {r : Request}
      {next : r.Reply → Prog op.Result} {step : Backend.Step r.Reply}
      (asks : s.calls[call]? = some ⟨op, .ask r next⟩)
      (answered : s.backend.answer c r = some step) :
      Step d s (.advance call c)
        { backend := step.backend
          calls := s.calls.set call ⟨op, (next step.reply).quiet⟩
          past := s.past ++ [.answered call r step.reply] }
  | refused {leaseFor : Duration} {token : Uuid} : Step d s (.lease leaseFor token) s
  | idle {leaseFor : Duration} {token : Uuid} {queue : Queue}
      (tried : s.backend.queue.tryLease s.backend.clock leaseFor token = (.nothing, queue)) :
      Step d s (.lease leaseFor token) (s.leasing queue [])
  | leased {leaseFor : Duration} {token : Uuid} {lease : Lease} {queue : Queue}
      (fresh : ∀ l ∈ s.past.leases, l.token ≠ token)
      (tried : s.backend.queue.tryLease s.backend.clock leaseFor token = (.leased lease, queue)) :
      Step d s (.lease leaseFor token) (s.leasing queue [.leased lease])
  | dropped {leaseFor : Duration} {token : Uuid} {queue : Queue}
      (tried : s.backend.queue.tryLease s.backend.clock leaseFor token = (.outOfRange, queue)) :
      Step d s (.lease leaseFor token) (s.leasing queue (s.offered.toList.map .dropped))
  | setClock {t : Instant} :
      Step d s (.setClock t) { s with backend := { s.backend with clock := t } }
  | setAvailable {store queue : Bool} :
      Step d s (.setAvailable store queue) { s with
        backend := { s.backend with
          store := { s.backend.store with available := store }
          queue := { s.backend.queue with available := queue } } }

theorem step_of_step? {d : Deployment} {s next : Pipeline} {m : Move}
    (h : s.step? d m = some next) : Step d s m next := by
  cases m with
  | begin op =>
      simp only [step?, begin?] at h
      split at h
      · cases h
        exact .begin ‹_›
      · cases h
  | advance call c =>
      simp only [step?, advance?] at h
      split at h
      · rename_i op r k asks
        obtain ⟨step, answered, rfl⟩ := Option.map_eq_some_iff.mp h
        exact .advance asks answered
      · cases h
  | lease leaseFor token =>
      simp only [step?, lease?] at h
      split at h
      · cases h
      · rename_i fresh
        have fresh : ∀ l ∈ s.past.leases, l.token ≠ token := by simpa using fresh
        split at h
        · split at h <;> cases h
          · exact .idle ‹_›
          · exact .leased fresh ‹_›
          · exact .dropped ‹_›
        · cases h
          exact .refused
  | setClock t =>
      cases h
      exact .setClock
  | setAvailable store queue =>
      cases h
      exact .setAvailable

theorem Step.operations {d : Deployment} {s next : Pipeline} {m : Move} (h : Step d s m next) :
    next.past.operations = s.past.operations ∨
      ∃ op, m = .begin op ∧ next.past.operations = s.past.operations ++ [op] := by
  cases h with
  | @begin op permitted => exact .inr ⟨op, rfl, Past.operations_append _ _⟩
  | advance asks answered => exact .inl (by simp [Past.operations, Happening.operation?])
  | refused => exact .inl rfl
  | idle tried => exact .inl (by simp [leasing])
  | leased fresh tried => exact .inl (by simp [leasing, Past.operations, Happening.operation?])
  | dropped tried =>
      refine .inl ?_
      simp only [leasing, Past.operations_append]
      cases s.offered <;> simp [Past.operations, Happening.operation?]
  | setClock => exact .inl rfl
  | setAvailable => exact .inl rfl

theorem operations_of_reachable {d : Deployment} {allowed : Pipeline → Move → Prop}
    {clock : Instant} {s : Pipeline} {P : Operation → Prop}
    (begun : ∀ s op, allowed s (.begin op) → P op) (reached : Reachable d allowed clock s) :
    ∀ op ∈ s.past.operations, P op := by
  induction reached with
  | initial => exact fun _ mem => nomatch mem
  | @step s next m _ may moved ih =>
      rcases (step_of_step? moved).operations with same | ⟨op, rfl, added⟩
      · rw [same]
        exact ih
      · intro other mem
        rw [added] at mem
        rcases List.mem_append.mp mem with old | new
        · exact ih other old
        · obtain rfl := List.mem_singleton.mp new
          exact begun s other may

namespace Sample

/-- Three attempts, with no delay between them. -/
def deployment : Deployment :=
  ⟨⟨3, .zero, .ofSeconds 86400, false⟩, [(.email, "mail")], .ofSeconds 30⟩

/-- As before, with a minute between attempts. -/
def patient : Deployment :=
  ⟨⟨3, .ofSeconds 60, .ofSeconds 86400, false⟩, [(.email, "mail")], .ofSeconds 30⟩

def submission : Submission := ⟨.email, "a@example.com", .object [("subject", .string "x")]⟩

def clock : Instant := .ofSecond 0

def id : Uuid := ⟨1#128⟩

def choice : Choice := ⟨id, 0, some (.ok ())⟩

def failure : Choice := { choice with delivery := some (.error (.network "down")) }

def advance (call : Nat) : Move := .advance call choice

/-- Call 0 creates a notification and has it queued. -/
def creation : List Move := .begin (.create submission) :: List.replicate 8 (advance 0)

/-- Two calls report on the first attempt. Both find it current, and the second one loses its write.
A third call reports on the second attempt. -/
def race : List Move :=
  creation ++ [.begin (.record id 0 (.transient "busy")), .begin (.record id 0 .success)] ++
    [1, 2, 1, 2, 1, 1, 2, 2].map advance ++
    .begin (.record id 1 .success) :: [3, 3, 3].map advance

end Sample

end Pipeline
end Courier
