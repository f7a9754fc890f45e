import Courier.Recovery.Statistics
import Courier.Service
import Courier.Width

namespace Courier.Recovery

open Prog

structure Summary where
  queued : Nat
  errors : Nat
  eligible : Nat
  remaining : Nat
  deriving DecidableEq

namespace Summary

def toJson (s : Summary) : Json :=
  .object [
    ("queued", .ofNat s.queued),
    ("errors", .ofNat s.errors),
    ("total_eligible", .ofNat s.eligible),
    ("remaining", .ofNat s.remaining)]

def event (s : Summary) : Event :=
  ⟨.info, "Bulk retry of failed notifications finished",
    [("queued", .count s.queued), ("errors", .count s.errors),
      ("total_eligible", .count s.eligible), ("remaining", .count s.remaining)]⟩

end Summary

/-- Resets the notifications one after another, and counts how many could be queued and how many
could not. -/
def resetAll : List Uuid → (queued errors : Nat) → Prog (Nat × Nat)
  | [], queued, errors => pure (queued, errors)
  | id :: rest, queued, errors => do
    match ← Service.resetFailed id with
    | .ok _ => resetAll rest (queued + 1) errors
    | .error e =>
      note ⟨.warn, "Failed to requeue notification",
        [Service.idField id, ("error", .text e.display)]⟩
      resetAll rest queued (errors + 1)

/-- Resets failed notifications, oldest first and no more than the limit. One that cannot be
recovered is counted as an error and the others go on. -/
def retryFailed (limit : Option Nat) : Prog (Except Error Summary) := do
  match ← Service.list (.withStatus .failed) with
  | .error e => pure (.error e)
  | .ok failed =>
    let eligible := failed.length
    let batch := min (limit.getD eligible) eligible
    let (queued, errors) ← resetAll ((failed.take batch).map Notification.id) 0 0
    let summary : Summary := ⟨queued, errors, eligible, eligible - queued⟩
    note summary.event
    pure (.ok summary)

def retryOne (id : Uuid) : Prog (Except Error Notification) := do
  match ← Service.resetFailed id with
  | .error e => pure (.error e)
  | .ok n =>
    note ⟨.info, "Failed notification requeued", [Service.idField id]⟩
    pure (.ok n)

/-- The page size for walks over the whole store. -/
def pageSize : Nat := 500

/-- Walks over the store page by page, until a page is not full. -/
def foldStoreFrom {σ : Type} (step : σ → Notification → σ) :
    (pages : Nat) → (offset : Nat) → σ → Prog (Except Error σ)
  | 0, _, _ => abort
  | pages + 1, offset, state => do
    match ← Service.list { Filter.any with limit := some pageSize, offset := some offset } with
    | .error e => pure (.error e)
    | .ok page =>
      let state := page.foldl step state
      if page.length < pageSize then pure (.ok state)
      else foldStoreFrom step pages (offset + page.length) state

/-- Folds all records in the order of listings. More pages than there are indices cannot come. -/
def foldStore {σ : Type} (step : σ → Notification → σ) (start : σ) : Prog (Except Error σ) :=
  foldStoreFrom step Width.limit64 0 start

/-- The backlog, and whether nothing is in flight. -/
structure Backlog where
  failed : Nat
  queued : Nat
  pending : Nat
  deriving DecidableEq

namespace Backlog

/-- A bulk recovery cannot meet running workers. -/
def safeToRetry (b : Backlog) : Bool := b.queued == 0

def toJson (b : Backlog) : Json :=
  .object [
    ("failed", .ofNat b.failed),
    ("queued", .ofNat b.queued),
    ("pending", .ofNat b.pending),
    ("safe_to_retry", .bool b.safeToRetry)]

end Backlog

def retryStatus : Prog (Except Error Backlog) := do
  match ← foldStore (fun (b : Breakdown) n => b.add n.status) {} with
  | .error e => pure (.error e)
  | .ok b => pure (.ok ⟨b.failed, b.queued, b.pending⟩)

/-- The report on all records, with the depth of the queue if it can be reached. -/
def stats : Prog (Except Error (Statistics × Option Queue.Depth)) := do
  match ← foldStore Statistics.add {} with
  | .error e => pure (.error e)
  | .ok s =>
    match ← depth with
    | .ok d => pure (.ok (s, some d))
    | .error e =>
      note ⟨.warn, "Queue depth unavailable for stats", [("error", .text e.display)]⟩
      pure (.ok (s, none))

end Courier.Recovery
