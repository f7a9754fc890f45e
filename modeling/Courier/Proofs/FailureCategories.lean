import Courier.Proofs.Numerals
import Courier.Proofs.Resends
import Courier.Recovery.Category

namespace Courier

namespace Recovery

open Text

variable {m : String} {c : Char} {n : Nat} {words : List String} {text a b between : List Char}

/-- The text reads as if a mail server had been at fault. -/
def blamesServer (s : String) : Bool := mentions (lower s.toList) ["smtp", "mail server"]

theorem category_of_server (filled : isBlankText m = false) (server : blamesServer m = true) :
    category (some m) = "smtp_error" := by
  rw [blamesServer] at server
  simp [category, Option.filter, filled, server]

theorem category_of_email (filled : isBlankText m = false) (server : blamesServer m = false)
    (invalid : mentions (lower m.toList) ["invalid"] = true)
    (email : mentions (lower m.toList) ["email"] = true) :
    category (some m) = "invalid_email" := by
  rw [blamesServer] at server
  simp [category, Option.filter, filled, server, invalid, email]

theorem category_of_timeout (filled : isBlankText m = false) (server : blamesServer m = false)
    (valid : mentions (lower m.toList) ["invalid"] = false)
    (late : mentions (lower m.toList) ["timeout", "timed out"] = true) :
    category (some m) = "timeout" := by
  rw [blamesServer] at server
  simp [category, Option.filter, filled, server, valid, late]

theorem mentions_or
    (each : ∀ w ∈ words, contains w.toList text = (contains w.toList a || contains w.toList b)) :
    mentions text words = (mentions a words || mentions b words) := by
  induction words with
  | nil => rfl
  | cons w words ih =>
      obtain ⟨first, each⟩ := List.forall_mem_cons.mp each
      have later := ih each
      simp only [mentions, List.any_cons] at later ⊢
      rw [first, later]
      ac_rfl

theorem mentions_append_cons (absent : ∀ w ∈ words, c ∉ w.toList) (a b : List Char) :
    mentions (a ++ c :: b) words = (mentions a words || mentions b words) :=
  mentions_or fun w known => contains_append_cons (absent w known) a b

theorem mentions_numeral (digitless : ∀ w ∈ words, w.toList.any isDigit = false) (n : Nat)
    (a b : List Char) :
    mentions (a ++ (numeral n ++ b)) words = (mentions a words || mentions b words) := by
  refine mentions_or fun w known =>
    contains_append_run (numeral_ne_nil n) (fun c mem inside => ?_) a b
  exact List.any_eq_false.mp (digitless w known) c inside (isDigit_of_mem_numeral mem)

theorem toList_rejection (r : String) : (EmitError.invalidRecipient r).display.toList =
    "invalid email recipient rejected: ".toList ++ r.toList := String.toList_append

theorem lower_rejection (r : String) : lower (EmitError.invalidRecipient r).display.toList =
    "invalid email recipient rejected".toList ++ ':' :: (' ' :: lower r.toList) := by
  have parts : "invalid email recipient rejected: ".toList =
      "invalid email recipient rejected".toList ++ [':', ' '] := rfl
  have context : "invalid email recipient rejected: ".toList.reverse ++ [] =
      [] ++ ' ' :: "invalid email recipient rejected:".toList.reverse := rfl
  rw [toList_rejection, lower, lowerFrom_small (by decide), context,
    lowerFrom_after (by decide +kernel) (by decide +kernel), parts, List.append_assoc]
  rfl

/-- The words in front of the rejected recipient decide, unless it blames a server by itself. -/
theorem category_rejection (r : String) : category (some (EmitError.invalidRecipient r).display) =
    if blamesServer r then "smtp_error" else "invalid_email" := by
  have filled : isBlankText (EmitError.invalidRecipient r).display = false := by
    rw [isBlankText, toList_rejection]
    rfl
  -- no word has a colon, so none is found across the boundary
  have server : blamesServer (EmitError.invalidRecipient r).display = blamesServer r := by
    rw [blamesServer, lower_rejection, mentions_append_cons (by decide)]
    rfl
  split
  · rename_i blamed
    exact category_of_server filled (server.trans blamed)
  · rename_i spared
    refine category_of_email filled (server.trans (Bool.eq_false_iff.mpr spared)) ?_ ?_
    · rw [lower_rejection, mentions_append_cons (by decide)]
      rfl
    · rw [lower_rejection, mentions_append_cons (by decide)]
      rfl

theorem isSmall_of_isDigit (digit : isDigit c = true) : isSmall c = true := by
  have bounds : 48 ≤ c.toNat ∧ c.toNat ≤ 57 := by simpa [isDigit, digitValue?] using digit
  simp only [isSmall, Bool.and_eq_true, Bool.or_eq_true, decide_eq_true_eq]
  omega

theorem lowerFrom_numeral (n : Nat) (before r : List Char) : lowerFrom before (numeral n ++ r) =
    numeral n ++ lowerFrom ((numeral n).reverse ++ before) r :=
  lowerFrom_small (List.all_eq_true.mpr fun _ mem =>
    isSmall_of_isDigit (isDigit_of_mem_numeral mem)) before r

theorem toList_toString (n : Nat) : (toString n).toList = numeral n := Nat.toList_repr

theorem toList_exhausted (n : Nat) (message : String) :
    (s!"Failed after {n} attempts: {message}").toList =
    "Failed after ".toList ++ (numeral n ++ (" attempts: ".toList ++ message.toList)) := by
  have parts : s!"Failed after {n} attempts: {message}" =
      "Failed after " ++ toString n ++ " attempts: " ++ message := rfl
  rw [parts, String.toList_append, String.toList_append, String.toList_append, toList_toString,
    List.append_assoc, List.append_assoc]

/-- What is said before the number of milliseconds, by a provider and by a worker, and its lower
case. -/
def lateness : List (List Char × List Char) :=
  [("timed out after ".toList, "timed out after ".toList),
    ("Send timed out after ".toList, "send timed out after ".toList)]

theorem lowerFrom_late {lead low : List Char} (known : (lead, low) ∈ lateness)
    (before r : List Char) :
    lowerFrom before (lead ++ r) = low ++ lowerFrom (lead.reverse ++ before) r := by
  simp only [lateness, List.mem_cons, Prod.mk.injEq, List.not_mem_nil, or_false] at known
  rcases known with ⟨rfl, rfl⟩ | ⟨rfl, rfl⟩
  · exact lowerFrom_small (by decide) before r
  · have parts : "Send timed out after ".toList = ['S'] ++ "end timed out after ".toList := rfl
    rw [parts, List.append_assoc, lowerFrom_append (by decide), lowerFrom_small (by decide),
      List.reverse_append, List.append_assoc]
    rfl

theorem lower_late {message : String} {lead low : List Char} {k : Nat} (n : Nat)
    (known : (lead, low) ∈ lateness) (late : message.toList = lead ++ (numeral k ++ "ms".toList)) :
    lower (s!"Failed after {n} attempts: {message}").toList =
      "failed after ".toList ++
        (numeral n ++ ((" attempts: ".toList ++ low) ++ (numeral k ++ "ms".toList))) := by
  have parts : "Failed after ".toList = ['F'] ++ "ailed after ".toList := rfl
  rw [toList_exhausted, late, lower, parts, List.append_assoc, lowerFrom_append (by decide),
    lowerFrom_small (by decide), lowerFrom_numeral, lowerFrom_small (by decide),
    lowerFrom_late known,
    lowerFrom_numeral, lowerFrom_of_small (by decide), List.append_assoc]
  rfl

/-- The words around the numbers decide. -/
theorem category_late {message : String} {lead low : List Char} {k : Nat} (n : Nat)
    (known : (lead, low) ∈ lateness) (late : message.toList = lead ++ (numeral k ++ "ms".toList)) :
    category (some s!"Failed after {n} attempts: {message}") = "timeout" := by
  have words : ∀ e ∈ lateness,
      mentions (" attempts: ".toList ++ e.2) ["smtp", "mail server"] = false ∧
      mentions (" attempts: ".toList ++ e.2) ["invalid"] = false ∧
      mentions (" attempts: ".toList ++ e.2) ["timeout", "timed out"] = true := by decide
  obtain ⟨server, valid, timedOut⟩ := words _ known
  have filled : isBlankText s!"Failed after {n} attempts: {message}" = false := by
    rw [isBlankText, toList_exhausted]
    rfl
  have lowered := lower_late n known late
  apply category_of_timeout filled
  · rw [blamesServer, lowered, mentions_numeral (by decide), mentions_numeral (by decide), server]
    rfl
  · rw [lowered, mentions_numeral (by decide), mentions_numeral (by decide), valid]
    rfl
  · rw [lowered, mentions_numeral (by decide), mentions_numeral (by decide), timedOut]
    rfl

end Recovery

namespace Service

variable {policy : Retry.Policy} {cur next : Notification} {time : Instant} {message : String}
  {wrap : Notification → Recorded}

theorem Reported.message_of_permanent
    (h : Reported policy cur time (.permanent message) next wrap) :
    next.errorMessage = some message := by
  cases h with
  | refused => rfl

theorem Reported.message_of_transient (h : Reported policy cur time (.transient message) next wrap)
    (queued : cur.status = .queued) (failed : next.status = .failed) :
    ∃ attempts : Nat, next.errorMessage = some s!"Failed after {attempts} attempts: {message}" := by
  cases h with
  | exhausted spent => exact ⟨_, rfl⟩
  | retried left decided => exact nomatch queued.symm.trans failed

end Service

namespace Worker

open Recovery

variable {policy : Retry.Policy} {limit : Duration} {lease : Lease} {result : Option JobOutcome}
  {reply : Option (Except EmitError Unit)} {conv : Conversation}
  {stored : Notification} {r : String}

def IsLate (reply : Option (Except EmitError Unit)) : Prop :=
  reply = none ∨ ∃ after, reply = some (.error (.timeout after))

theorem IsLate.outcome (late : IsLate reply) (limit : Duration) :
    ∃ message lead low k, (lead, low) ∈ lateness ∧
    outcomeOf limit reply = .transient message ∧
      message.toList = lead ++ (Text.numeral k ++ "ms".toList) := by
  rcases late with rfl | ⟨after, rfl⟩
  · refine ⟨_, "Send timed out after ".toList, _, limit.millis, .tail _ (.head _), rfl, ?_⟩
    show ("Send timed out after " ++ toString limit.millis ++ "ms").toList = _
    rw [String.toList_append, String.toList_append, toList_toString, List.append_assoc]
  · refine ⟨_, "timed out after ".toList, _, after.millis, .head _, rfl, ?_⟩
    show ("timed out after " ++ toString after.millis ++ "ms").toList = _
    rw [String.toList_append, String.toList_append, toList_toString, List.append_assoc]

theorem Ended.category_of_rejection
    (h : Ended policy lease (outcomeOf limit (some (.error (.invalidRecipient r)))) result conv)
    (mem : stored ∈ conv.written) :
    category stored.errorMessage = if blamesServer r then "smtp_error" else "invalid_email" := by
  obtain ⟨old, cur, next, time, wrap, rfl, queued, reported⟩ := h.reported mem
  have message : (Store.merged old next).errorMessage =
      some (EmitError.invalidRecipient r).display :=
    reported.message_of_permanent
  rw [message, category_rejection]

theorem Ended.category_of_late (late : IsLate reply)
    (h : Ended policy lease (outcomeOf limit reply) result conv) (mem : stored ∈ conv.written)
    (failed : stored.status = .failed) :
    category stored.errorMessage = "timeout" := by
  obtain ⟨message, lead, low, k, known, outcome, shape⟩ := late.outcome limit
  rw [outcome] at h
  obtain ⟨old, cur, next, time, wrap, rfl, queued, reported⟩ := h.reported mem
  obtain ⟨attempts, made⟩ := reported.message_of_transient queued failed
  have made : (Store.merged old next).errorMessage =
      some s!"Failed after {attempts} attempts: {message}" := made
  rw [made, category_late attempts known shape]

end Worker

namespace Pipeline

open Recovery (category blamesServer)

variable {d : Deployment} {allowed : Pipeline → Move → Prop} {clock : Instant} {s : Pipeline}
  {before after : Past} {call : Nat} {lease : Lease} {rest : Prog Worker.JobOutcome}
  {channel : Channel} {recipient : String} {message : Message} {wait : Duration}
  {reply : Option (Except EmitError Unit)} {next stored : Notification}

/-- A failure that a worker has recorded is put in the category of what the provider said. A
rejected recipient is put there by what it reads like. -/
theorem failures_categorized (reached : Reachable d allowed clock s)
    (working : s.calls[call]? = some ⟨.process lease, rest⟩)
    (split : s.past = before ++
      .answered call (.send channel recipient message wait) reply :: after)
    (wrote : .answered call (.update next) (.ok stored) ∈ after)
    (failed : stored.status = .failed) :
    (∀ r, reply = some (.error (.invalidRecipient r)) →
      category stored.errorMessage = if blamesServer r then "smtp_error" else "invalid_email") ∧
      (∀ late, reply = some (.error (.timeout late)) → category stored.errorMessage = "timeout") ∧
      (reply = none → category stored.errorMessage = "timeout") := by
  obtain ⟨_, ending, more, ended⟩ := handled_of_reachable reached working split
  have mem : stored ∈ Conversation.written (after.conversation call ++ more) := by
    rw [Conversation.written_append]
    exact List.mem_append_left _ (Conversation.mem_written (Past.mem_conversation.mpr wrote))
  refine ⟨?_, ?_, ?_⟩
  · rintro r rfl
    exact ended.category_of_rejection mem
  · rintro late rfl
    exact ended.category_of_late (.inr ⟨late, rfl⟩) mem failed
  · rintro rfl
    exact ended.category_of_late (.inl rfl) mem failed

namespace Sample

def hasty : Deployment := ⟨⟨1, .zero, .ofSeconds 86400, false⟩, [(.email, "mail")], .ofSeconds 30⟩

/-- A message to that address is handed to the provider, who answers so. -/
def answered (address : String) (reply : Option (Except EmitError Unit)) : List Move :=
  .begin (.create { submission with recipient := address }) :: List.replicate 8 (advance 0) ++
    [.lease (.ofSeconds 60) ⟨10#128⟩, .begin (.process (leaseUntil 10#128 60)), advance 1,
      .advance 1 { choice with delivery := reply }, advance 1, advance 1, advance 1, advance 1]

def Fails (address : String) (reply : Option (Except EmitError Unit)) (stored : Notification) :
    Prop :=
  ∃ s rest before after next,
    (initial Sample.clock).run? Sample.hasty anything (answered address reply) = some s ∧
      s.calls[1]? = some ⟨.process (leaseUntil 10#128 60), rest⟩ ∧
      s.past = before ++ .answered 1 (.send .email address Sample.mail (.ofSeconds 30))
        reply :: after ∧
      .answered 1 (.update next) (.ok stored) ∈ after ∧ stored.status = .failed

theorem fails_of_run {address : String} (run : (initial Sample.clock).run? Sample.hasty anything
      (answered address reply) = some s)
    (working : s.calls[1]? = some ⟨.process (leaseUntil 10#128 60), rest⟩)
    (split : s.past = s.past.take 12 ++
      .answered 1 (.send .email address Sample.mail (.ofSeconds 30)) reply :: s.past.drop 13)
    (wrote : (s.past.drop 13)[2]? = some (.answered 1 (.update next) (.ok stored)))
    (failed : stored.status = .failed) : Fails address reply stored :=
  ⟨s, rest, _, _, next, run, working, split, List.mem_of_getElem? wrote, failed⟩

end Sample

/-- A recipient is rejected, and a message is not delivered in time. -/
theorem failures_categorized_after_one_attempt :
    (∃ stored, Sample.Fails "a@example.com" (some (.error (.invalidRecipient "gone"))) stored ∧
      category stored.errorMessage = "invalid_email") ∧
      ∃ stored, Sample.Fails "a@example.com" none stored ∧
        category stored.errorMessage = "timeout" := by
  have rejected : ∃ stored,
      Sample.Fails "a@example.com" (some (.error (.invalidRecipient "gone"))) stored :=
    ⟨_, Sample.fails_of_run rfl rfl rfl rfl rfl⟩
  have overdue : ∃ stored, Sample.Fails "a@example.com" none stored :=
    ⟨_, Sample.fails_of_run rfl rfl rfl rfl rfl⟩
  constructor
  · obtain ⟨stored, fails⟩ := rejected
    refine ⟨stored, fails, ?_⟩
    obtain ⟨s, rest, before, after, next, run, working, split, wrote, failed⟩ := fails
    have reached := Reachable.initial.run run
    exact (failures_categorized reached working split wrote failed).1 "gone" rfl
  · obtain ⟨stored, fails⟩ := overdue
    refine ⟨stored, fails, ?_⟩
    obtain ⟨s, rest, before, after, next, run, working, split, wrote, failed⟩ := fails
    have reached := Reachable.initial.run run
    exact (failures_categorized reached working split wrote failed).2.2 rfl

/-- A provider rejects an address, and the failure is counted as one of the mail server. -/
theorem rejection_blames_server : Recipient.validate .email "smtp@example.com" = .ok () ∧
    ∃ stored, Sample.Fails "smtp@example.com"
      (some (.error (.invalidRecipient "smtp@example.com"))) stored ∧
      category stored.errorMessage = "smtp_error" :=
  ⟨rfl, _, Sample.fails_of_run rfl rfl rfl rfl rfl, rfl⟩

end Pipeline

end Courier
