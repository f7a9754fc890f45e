import Courier.Proofs.Course

namespace Courier.Recovery

open Prog Service

/-- One reset of a bulk recovery: of which notification, what was said, and what came of it. -/
structure Account where
  id : Uuid
  said : Conversation
  result : Except Error Notification

/-- The reset could not be carried out. -/
def Account.isError (a : Account) : Bool :=
  match a.result with
  | .ok _ => false
  | .error _ => true

variable {w : Surroundings} {b b' b'' : Backend} {conv : Conversation} {a : Account}
  {accounts more : List Account}

/-- Resets that come to their ends one after another. -/
inductive Accounts (w : Surroundings) : List Account → Backend → Backend → Prop
  | nil {b : Backend} : Accounts w [] b b
  | cons {a : Account} {rest : List Account} {b between b' : Backend}
      (course : (resetFailed a.id).Goes w b a.said (.done a.result) between)
      (later : Accounts w rest between b') : Accounts w (a :: rest) b b'

/-- The failed notifications that a recovery of so many takes from a listing. -/
def batchOf (limit : Option Nat) (failed : List Notification) : List Uuid :=
  (failed.take (min (limit.getD failed.length) failed.length)).map Notification.id

theorem resetAll_accounts {ids : List Uuid} {queued errors : Nat} {result : Nat × Nat}
    (course : (resetAll ids queued errors).Goes w b conv (.done result) b') :
    ∃ accounts : List Account, accounts.map Account.id = ids ∧
      conv = accounts.flatMap Account.said ∧ Accounts w accounts b b' ∧
      result = (queued + accounts.countP fun a => !a.isError,
        errors + accounts.countP Account.isError) := by
  induction ids generalizing queued errors b conv with
  | nil =>
      cases course
      exact ⟨[], rfl, rfl, .nil, rfl⟩
  | cons id rest ih =>
      obtain ⟨answer, said, later, between, rfl, first, course⟩ := course.of_bind
      match answer with
      | .ok n =>
          obtain ⟨accounts, ids, spoken, resets, counted⟩ := ih course
          refine ⟨⟨id, said, .ok n⟩ :: accounts, ?_, ?_, .cons first resets, ?_⟩
          · simp [ids]
          · simp [spoken]
          · simp [counted, Account.isError]
            omega
      | .error e =>
          cases course with
          | log course =>
              obtain ⟨accounts, ids, spoken, resets, counted⟩ := ih course
              refine ⟨⟨id, said, .error e⟩ :: accounts, ?_, ?_, .cons first resets, ?_⟩
              · simp [ids]
              · simp [spoken]
              · simp [counted, Account.isError, List.countP_cons]
                omega

/-- A bulk recovery that returns a summary has listed the failed notifications, has reset those that
it was to take one after another, and has counted what came of them. -/
theorem retryFailed_accounts {limit : Option Nat} {summary : Summary}
    (course : (retryFailed limit).Goes w b conv (.done (.ok summary)) b') :
    ∃ before failed accounts, w.others b before ∧
      before.store.scan (.withStatus .failed) = .ok failed ∧
      conv = ⟨.scan (.withStatus .failed), .ok failed⟩ :: accounts.flatMap Account.said ∧
      accounts.map Account.id = batchOf limit failed ∧ Accounts w accounts before b' ∧
      summary.eligible = failed.length ∧ summary.queued = accounts.countP (fun a => !a.isError) ∧
      summary.errors = accounts.countP Account.isError := by
  cases course with
  | @ask _ _ _ _ before _ c step rest others allowed answered onward =>
      cases answered
      refine ⟨before, ?_⟩
      simp only [Backend.reading] at onward ⊢
      cases scanned : before.store.scan (.withStatus .failed) with
      | error e =>
          rw [scanned] at onward
          cases onward
      | ok failed =>
          rw [scanned] at onward
          change Goes w (resetAll (batchOf limit failed) 0 0 >>= _) before rest _ b' at onward
          obtain ⟨counts, said, ending, between, rfl, course, onward⟩ := onward.of_bind
          obtain ⟨queued, errors⟩ := counts
          obtain ⟨accounts, ids, rfl, resets, counted⟩ := resetAll_accounts course
          obtain ⟨rfl, rfl⟩ := Prod.mk.inj counted
          cases onward with
          | log onward =>
              cases onward
              refine ⟨failed, accounts, others, rfl, ?_, ids, resets, rfl, ?_, ?_⟩
              · simp
              · simp
              · simp

end Courier.Recovery
