import Courier.Proofs.Refusals

namespace Courier

open Prog

namespace Auth.Validator

variable {secret credential : String} {b b' : Backend} {conv : Conversation}
  {outcome : Option Judgement}

theorem judgeSigned_empty (secret : String) (seconds : Nat) :
    ∃ e, judgeSigned secret "" seconds = .error e := by
  exact ⟨_, rfl⟩

theorem status_of_rejected {seconds : Nat} {e : Error}
    (rejected : judgeSigned secret credential seconds = .error e) : e.httpStatus = 401 := by
  unfold judgeSigned at rejected
  split at rejected
  · cases rejected
  · cases rejected
    rfl

theorem validate_ends (run : ((signed secret).validate credential).Ends b conv outcome b') :
    ∃ seconds : Nat, conv = [⟨.wallSeconds, seconds⟩] ∧
      outcome = some (judgeSigned secret credential seconds) := by
  obtain ⟨seconds, _, rfl, judged⟩ := Ends.of_foreign rfl run
  cases judged
  exact ⟨seconds, rfl, rfl⟩

end Auth.Validator

namespace Http

open Auth.Validator (judgeSigned)

/-- The endpoint is for administrators. -/
def Endpoint.isForAdmins : Endpoint → Bool
  | .retryFailed | .retryOne _ | .retryStatus | .stats => true
  | _ => false

/-- In the course of the request its credential was accepted as that caller's. -/
def Request.Shows (r : Request) (secret : String) (conv : Conversation) (p : Principal) : Prop :=
  ∃ (credential : String) (seconds : Nat), r.bearerToken? = some credential ∧
    ⟨.wallSeconds, seconds⟩ ∈ conv ∧ judgeSigned secret credential seconds = .ok p

/-- No caller was accepted in the course of the request who may use the endpoint. -/
def Request.Unwelcome (r : Request) (secret : String) (endpoint : Endpoint) (conv : Conversation) :
    Prop :=
  ∀ p, r.Shows secret conv p → endpoint.isForAdmins = true ∧ p.isAdmin = false

/-- What the judgement on a caller comes to, who may be known before: a rejection, or a caller who
is known or has been accepted, and is an administrator if need be. -/
inductive Request.Judged (r : Request) (secret : String) (known : Option Principal)
    (forAdmins : Bool) (conv : Conversation) : Option Auth.Judgement → Prop
  | rejected {e : Error} (status : e.httpStatus = 401 ∨ e.httpStatus = 403) :
      Judged r secret known forAdmins conv (some (.error e))
  | accepted {p : Principal} (shown : known = some p ∨ r.Shows secret conv p)
      (mighty : forAdmins = true → p.isAdmin = true) :
      Judged r secret known forAdmins conv (some (.ok p))

theorem Request.Shows.more {r : Request} {secret : String} {conv more : Conversation}
    {p : Principal} (shown : r.Shows secret conv p) (sub : conv ⊆ more) :
    r.Shows secret more p := by
  obtain ⟨credential, seconds, given, read, accepted⟩ := shown
  exact ⟨credential, seconds, given, sub read, accepted⟩

theorem Request.Unwelcome.less {r : Request} {secret : String} {endpoint : Endpoint}
    {conv more : Conversation} (unwelcome : r.Unwelcome secret endpoint more) (sub : conv ⊆ more) :
    r.Unwelcome secret endpoint conv :=
  fun p shown => unwelcome p (shown.more sub)

namespace App

variable {app : App} {secret key : String} {r : Request} {known : Option Principal}
  {endpoint : Endpoint} {b b' : Backend} {conv : Conversation} {outcome : Option Auth.Judgement}

theorem bucketKey_ends (judges : app.validate = (Auth.Validator.signed secret).validate)
    {outcome : Option (String × Option Principal)}
    (run : (app.bucketKey r).Ends b conv outcome b') :
    ∃ key known, outcome = some (key, known) ∧ ∀ p, known = some p → r.Shows secret conv p := by
  unfold bucketKey at run
  split at run
  · rename_i credential _ given
    rw [judges] at run
    rcases run.of_bind with ⟨_, broken⟩ | ⟨judgement, first, _, _, rfl, judged, rest⟩
    · obtain ⟨_, _, missing⟩ := Auth.Validator.validate_ends broken
      cases missing
    · obtain ⟨seconds, rfl, same⟩ := Auth.Validator.validate_ends judged
      cases Option.some.inj same
      cases accepted : judgeSigned secret credential seconds with
      | error e =>
          rw [accepted] at rest
          cases rest
          exact ⟨_, _, rfl, fun _ missing => nomatch missing⟩
      | ok p =>
          rw [accepted] at rest
          cases rest
          -- the choice of the bucket tries a blank credential as well, which is never accepted
          have filled : credential ≠ "" := by
            rintro rfl
            obtain ⟨e, rejected⟩ := Auth.Validator.judgeSigned_empty secret seconds
            cases rejected.symm.trans accepted
          refine ⟨_, _, rfl, fun p' same => ?_⟩
          cases same
          exact ⟨credential, seconds, Request.bearerToken?_of_text given filled,
            List.mem_cons_self, accepted⟩
  · cases run
    exact ⟨_, _, rfl, fun _ missing => nomatch missing⟩

theorem caller_ends (judges : app.validate = (Auth.Validator.signed secret).validate)
    (run : (app.caller known r).Ends b conv outcome b') :
    r.Judged secret known false conv outcome := by
  unfold caller at run
  split at run
  · cases run
    exact .accepted (.inl rfl) nofun
  · split at run
    · rename_i credential given
      rw [judges] at run
      obtain ⟨seconds, rfl, rfl⟩ := Auth.Validator.validate_ends run
      cases accepted : judgeSigned secret credential seconds with
      | error e => exact .rejected (.inl (Auth.Validator.status_of_rejected accepted))
      | ok p =>
          exact .accepted (.inr ⟨credential, seconds, given, List.mem_cons_self, accepted⟩) nofun
    · cases run
      exact .rejected (.inl rfl)

theorem administrator_ends (judges : app.validate = (Auth.Validator.signed secret).validate)
    (run : (app.administrator known r).Ends b conv outcome b') :
    r.Judged secret known true conv outcome := by
  rcases run.of_bind with ⟨rfl, broken⟩ | ⟨judgement, first, last, _, rfl, judged, rest⟩
  · cases caller_ends judges broken
  · cases caller_ends judges judged with
    | rejected status =>
        cases rest
        exact .rejected status
    | @accepted p shown _ =>
        have rest : (if p.isAdmin then _ else _ : Prog Auth.Judgement).Ends _ _ _ _ := rest
        split at rest
        · rename_i mighty
          cases rest
          rw [List.append_nil]
          exact .accepted shown fun _ => mighty
        · cases rest with
          | log onward =>
              cases onward
              exact .rejected (.inr rfl)

/-- Behind every endpoint but those of the health checks, the caller is judged before the work. -/
theorem serve_eq (app : App) (known : Option Principal) (r : Request)
    (api : endpoint ≠ .live ∧ endpoint ≠ .ready) :
    ∃ work, app.serve known r endpoint =
      withCaller (if endpoint.isForAdmins then app.administrator known r else app.caller known r)
        work := by
  cases endpoint with
  | live => exact absurd rfl api.1
  | ready => exact absurd rfl api.2
  | _ => exact ⟨_, rfl⟩

theorem looks_of_signed (judges : app.validate = (Auth.Validator.signed secret).validate) :
    app.JudgesByLooking := by
  intro credential
  rw [judges]
  exact ⟨rfl, fun _ => trivial⟩

def Rejects (response : Response) : Prop := response.status = 401 ∨ response.status = 403

theorem serve_unwelcome (judges : app.validate = (Auth.Validator.signed secret).validate)
    (api : endpoint ≠ .live ∧ endpoint ≠ .ready) {outcome : Option Response}
    (unwelcome : r.Unwelcome secret endpoint conv)
    (unknown : ∀ p, known = some p → endpoint.isForAdmins = true ∧ p.isAdmin = false)
    (run : (app.serve known r endpoint).Ends b conv outcome b') :
    b.Untouched b' ∧ ∃ response, outcome = some response ∧ Rejects response := by
  obtain ⟨work, same⟩ := serve_eq app known r api
  rw [same] at run
  have looks : (if endpoint.isForAdmins then app.administrator known r
      else app.caller known r).Only fun q => q.isLook = true := by
    split
    · exact administrator_only (looks_of_signed judges) known r
    · exact caller_only (looks_of_signed judges) known r
  have judgement {conv : Conversation} {outcome : Option Auth.Judgement} {b' : Backend}
      (run : (if endpoint.isForAdmins then app.administrator known r
        else app.caller known r).Ends b conv outcome b') :
      r.Judged secret known endpoint.isForAdmins conv outcome := by
    cases forAdmins : endpoint.isForAdmins with
    | true => exact administrator_ends judges (by rwa [forAdmins] at run)
    | false => exact caller_ends judges (by rwa [forAdmins] at run)
  rcases run.of_bind with ⟨rfl, broken⟩ | ⟨_, first, last, _, rfl, judged, rest⟩
  · cases judgement broken
  · cases judgement judged with
    | rejected status =>
        cases rest
        refine ⟨judged.untouched looks, _, rfl, ?_⟩
        unfold Rejects
        rwa [status_toResponse]
    | @accepted p shown mighty =>
        -- the work would begin here, but nobody who may use the endpoint was accepted
        have refused : endpoint.isForAdmins = true ∧ p.isAdmin = false := by
          rcases shown with fromBucket | fromToken
          · exact unknown p fromBucket
          · exact unwelcome p (fromToken.more (List.subset_append_left first last))
        exact absurd ((mighty refused.1).symm.trans refused.2) (by decide)

/-- The answer of the buckets to the request has no meaning: the request has to wait, and the
waiting time is no duration. -/
def Unanswerable (app : App) (conv : Conversation) : Prop :=
  ∃ config key time reply, ⟨.acquire config key time, reply⟩ ∈ conv ∧
    app.limiter.admission? reply = none

theorem check_ends {l : RateLimit.Limiter Float}
    {outcome : Option (Except Error RateLimit.Admission)}
    (run : (l.check key).Ends b conv outcome b') :
    ∃ time reply, conv = [⟨.now, time⟩, ⟨.acquire l.config key time, reply⟩] ∧
      outcome = l.admission? reply := by
  obtain ⟨time, _, _, rfl, asked⟩ := run.of_now
  obtain ⟨reply, _, rfl, granted⟩ := Ends.of_foreign (r := .acquire l.config key time) rfl asked
  rcases Ends.of_orAbort granted with ⟨missing, rfl, rfl⟩ | ⟨result, admitted, noted⟩
  · exact ⟨time, reply, rfl, missing.symm⟩
  · cases noted.of_noteAll
    exact ⟨time, reply, rfl, admitted.symm⟩

/-- The limiter refuses nobody because its buckets cannot be reached. -/
theorem admission_of_failOpen {l : RateLimit.Limiter Float} (failOpen : l.failOpen = true)
    {reply : Except Error (RateLimit.Grant Float)} {e : Error} :
    l.admission? reply ≠ some (.error e) := by
  cases reply with
  | ok grant => simp [RateLimit.Limiter.admission?]
  | error cause => simp [RateLimit.Limiter.admission?, failOpen]

theorem not_unanswerable (nothing : ∀ x ∈ conv, TakesNothing x.1) : ¬app.Unanswerable conv := by
  rintro ⟨config, key, time, reply, asked, _⟩
  exact nothing _ asked config key time rfl

theorem unanswerable_append {more : Conversation} :
    app.Unanswerable (conv ++ more) ↔ app.Unanswerable conv ∨ app.Unanswerable more := by
  unfold Unanswerable
  simp only [List.mem_append, or_and_right, exists_or]

def taking (app : App) (key : String) (time : Instant)
    (reply : Except Error (RateLimit.Grant Float)) :
    Conversation :=
  [⟨.now, time⟩, ⟨.acquire app.limiter.config key time, reply⟩]

theorem unanswerable_taking {time : Instant} {reply : Except Error (RateLimit.Grant Float)} :
    app.Unanswerable (app.taking key time reply) ↔ app.limiter.admission? reply = none := by
  constructor
  · rintro ⟨config, other, later, given, asked, missing⟩
    rcases List.mem_cons.mp asked with first | second
    · cases first
    · cases List.mem_singleton.mp second
      exact missing
  · intro missing
    exact ⟨_, _, _, reply, List.mem_cons_of_mem _ List.mem_cons_self, missing⟩

/-- What becomes of the work behind the bucket of a key. -/
inductive Guarded (app : App) (key : String) (work : Prog Response) (b b' : Backend) :
    Conversation → Option Response → Prop
  | unanswerable {time : Instant} {reply : Except Error (RateLimit.Grant Float)}
      (answer : app.limiter.admission? reply = none) (untouched : b.Untouched b') :
      Guarded app key work b b' (app.taking key time reply) none
  | failed {time : Instant} {reply : Except Error (RateLimit.Grant Float)} {e : Error}
      (answer : app.limiter.admission? reply = some (.error e)) (untouched : b.Untouched b') :
      Guarded app key work b b' (app.taking key time reply) (some e.toResponse)
  | refused {time : Instant} {reply : Except Error (RateLimit.Grant Float)}
      {admission : RateLimit.Admission}
      (answer : app.limiter.admission? reply = some (.ok admission))
      (untouched : b.Untouched b') :
      Guarded app key work b b' (app.taking key time reply)
        (some (Error.rateLimited admission.retryAfterSeconds).toResponse)
  | admitted {time : Instant} {reply : Except Error (RateLimit.Grant Float)}
      {admission : RateLimit.Admission} {between : Backend} {rest : Conversation}
      {result : Option Response} (answer : app.limiter.admission? reply = some (.ok admission))
      (untouched : b.Untouched between) (run : work.Ends between rest result b') :
      Guarded app key work b b' (app.taking key time reply ++ rest)
        (result.map fun response => { response with remaining := some admission.remaining })

theorem guarded_ends {work : Prog Response} {outcome : Option Response}
    (run : (app.guarded key r work).Ends b conv outcome b') :
    Guarded app key work b b' conv outcome := by
  rcases run.of_bind with ⟨rfl, broken⟩ | ⟨result, first, rest, between, rfl, checked, run⟩
  · have untouched := broken.untouched (check_looks app.limiter key)
    obtain ⟨time, reply, rfl, missing⟩ := check_ends broken
    exact .unanswerable missing.symm untouched
  · have untouched := checked.untouched (check_looks app.limiter key)
    obtain ⟨time, reply, rfl, answered⟩ := check_ends checked
    cases result with
    | error e =>
        cases run
        exact .failed answered.symm untouched
    | ok admission =>
        have run : (if admission.allowed then _ else _ : Prog Response).Ends _ _ _ _ := run
        split at run
        · rcases run.of_bind with ⟨rfl, worked⟩ | ⟨response, more, last, _, rfl, worked, done⟩
          · exact .admitted answered.symm untouched worked
          · cases done
            rw [List.append_nil]
            exact .admitted answered.symm untouched worked
        · cases run with
          | log noted =>
              cases noted
              exact .refused answered.symm untouched

theorem judging_takes_nothing (judges : app.validate = (Auth.Validator.signed secret).validate)
    (credential : String) : (app.validate credential).Only TakesNothing := by
  rw [judges]
  exact ⟨fun _ _ _ same => (nomatch same), fun _ => trivial⟩

theorem guarded_breaks {work : Prog Response} {reply : Except Error (RateLimit.Grant Float)}
    (missing : app.limiter.admission? reply = none) :
    (app.guarded key r work).Ends b (app.taking key b.clock reply) none b := by
  have broken : (app.limiter.check key).Ends b (app.taking key b.clock reply) none b := by
    apply Ends.now
    refine .foreign (r := .acquire app.limiter.config key b.clock) rfl reply ?_
    show (orAbort (app.limiter.admission? reply) >>= _).Ends b [] none b
    rw [missing]
    exact .abort
  exact broken.bind_of_none rfl

def TurnsAway (response : Response) : Prop := Rejects response ∨ response.status = 429

/-- The caller is turned away and nothing is written. There is no answer only if the buckets gave
one without a meaning. -/
structure TurnedAway (app : App) (b b' : Backend) (conv : Conversation)
    (outcome : Option Response) : Prop where
  untouched : b.Untouched b'
  answer : ∀ response, outcome = some response → TurnsAway response
  broken : outcome = none ↔ app.Unanswerable conv

theorem serve_turnsAway (judges : app.validate = (Auth.Validator.signed secret).validate)
    (api : endpoint ≠ .live ∧ endpoint ≠ .ready) {outcome : Option Response}
    (unwelcome : r.Unwelcome secret endpoint conv)
    (unknown : ∀ p, known = some p → endpoint.isForAdmins = true ∧ p.isAdmin = false)
    (run : (app.serve known r endpoint).Ends b conv outcome b') :
    app.TurnedAway b b' conv outcome := by
  obtain ⟨untouched, response, rfl, rejected⟩ := serve_unwelcome judges api unwelcome unknown run
  have answerable : ¬app.Unanswerable conv :=
    not_unanswerable
      (run.said (serve_only takesNothing_of_isWork takesNothing_of_isCheck
        (judging_takes_nothing judges) known r endpoint))
  refine ⟨untouched, fun _ same => ?_, ⟨nofun, fun broken => absurd broken answerable⟩⟩
  cases same
  exact .inl rejected

theorem limited_turnsAway (judges : app.validate = (Auth.Validator.signed secret).validate)
    (failOpen : app.limiter.failOpen = true) {resource : Resource}
    (offered : resource.endpoint? r.method = some endpoint)
    (api : endpoint ≠ .live ∧ endpoint ≠ .ready) {outcome : Option Response}
    (unwelcome : r.Unwelcome secret endpoint conv)
    (run : (app.limited resource r).Ends b conv outcome b') : app.TurnedAway b b' conv outcome := by
  rw [limited_eq] at run
  rcases run.of_bind with ⟨_, broken⟩ | ⟨⟨key, known⟩, first, rest, between, rfl, chosen, run⟩
  · obtain ⟨_, _, missing, _⟩ := bucketKey_ends judges broken
    cases missing
  · obtain ⟨_, _, same, shows⟩ := bucketKey_ends judges chosen
    cases same
    have looked := chosen.untouched (bucketKey_only (looks_of_signed judges) r)
    have first_answerable : ¬app.Unanswerable first :=
      not_unanswerable (chosen.said (bucketKey_only (judging_takes_nothing judges) r))
    have unknown (p : Principal) (shown : known = some p) :
        endpoint.isForAdmins = true ∧ p.isAdmin = false :=
      unwelcome p ((shows p shown).more (List.subset_append_left first rest))
    have dispatched : app.dispatch known resource r = app.serve known r endpoint := by
      rw [dispatch, offered]
    have guarded := guarded_ends run
    rw [dispatched] at guarded
    cases guarded with
    | unanswerable answer untouched =>
        refine ⟨looked.trans untouched, nofun, fun _ => ?_, fun _ => rfl⟩
        exact unanswerable_append.mpr (.inr (unanswerable_taking.mpr answer))
    | failed answer untouched => exact absurd answer (admission_of_failOpen failOpen)
    | refused answer untouched =>
        refine ⟨looked.trans untouched, fun _ same => ?_, nofun, fun broken => ?_⟩
        · cases same
          exact .inr rfl
        · rcases unanswerable_append.mp broken with before | after
          · exact absurd before first_answerable
          · cases (unanswerable_taking.mp after).symm.trans answer
    | @admitted time reply admission _ later result answer untouched worked =>
        have later_unwelcome := unwelcome.less (List.subset_append_right first _)
        have inner := serve_turnsAway judges api
          (later_unwelcome.less (List.subset_append_right _ later)) unknown worked
        refine ⟨looked.trans (untouched.trans inner.untouched), fun response same => ?_, ?_⟩
        · obtain ⟨served, rfl, rfl⟩ := Option.map_eq_some_iff.mp same
          exact inner.answer served rfl
        · rw [Option.map_eq_none_iff, inner.broken, unanswerable_append, unanswerable_append,
            unanswerable_taking, answer]
          simp [first_answerable]

theorem handle_turnsAway (judges : app.validate = (Auth.Validator.signed secret).validate)
    (failOpen : app.limiter.failOpen = true) {resource : Resource}
    (found : Resource.ofPath? r.path = some resource)
    (offered : resource.endpoint? r.method = some endpoint)
    (api : endpoint ≠ .live ∧ endpoint ≠ .ready) {outcome : Option Response}
    (unwelcome : r.Unwelcome secret endpoint conv) (run : (app.handle r).Ends b conv outcome b') :
    app.TurnedAway b b' conv outcome := by
  rw [handle_of_found app found] at run
  have inner {conv : Conversation} {outcome : Option Response} {b' : Backend}
      (unwelcome : r.Unwelcome secret endpoint conv)
      (run : (if resource.isLimited r.method then app.limited resource r
        else app.dispatch none resource r).Ends b conv outcome b') :
      app.TurnedAway b b' conv outcome := by
    split at run
    · exact limited_turnsAway judges failOpen offered api unwelcome run
    · rw [dispatch, offered] at run
      have unknown (p : Principal) (missing : none = some p) :
          endpoint.isForAdmins = true ∧ p.isAdmin = false := nomatch missing
      exact serve_turnsAway judges api unwelcome unknown run
  rcases run.of_bind with ⟨rfl, broken⟩ | ⟨response, first, last, _, rfl, answered, dressed⟩
  · exact inner unwelcome broken
  · cases dressed
    rw [List.append_nil] at unwelcome ⊢
    obtain ⟨untouched, answer, broken⟩ := inner unwelcome answered
    refine ⟨untouched, fun _ same => ?_, ⟨nofun, fun given => nomatch broken.mpr given⟩⟩
    have turned := answer response rfl
    cases same
    unfold TurnsAway Rejects at turned ⊢
    split <;> split <;> exact turned

theorem handle_hasEnd (judges : app.validate = (Auth.Validator.signed secret).validate)
    (r : Request) (b : Backend) : ∃ conv outcome b', (app.handle r).Ends b conv outcome b' := by
  refine Only.hasEnd (handle_only (fun _ => .inl) ?_ ?_ (fun _ _ _ => .inr rfl) r) b
  · exact fun _ check => .inr (Request.isForeign_of_isCheck check)
  · intro credential
    rw [judges]
    exact ⟨.inr rfl, fun _ => trivial⟩

theorem of_settings {s : Settings Float} {v : Auth.Validator} (made : s.app v = .ok app) :
    app.validate = v.validate ∧ app.limiter.failOpen = true := by
  unfold Settings.app at made
  cases allowed : s.buckets with
  | error e =>
      rw [allowed] at made
      cases made
  | ok config =>
      rw [allowed] at made
      cases made
      exact ⟨rfl, rfl⟩

/-- A web request that is refused has no effect, under any settings that judge callers by a
signature, whichever accesses fail. If no caller is accepted in its course who may use the endpoint,
the store and the queue stay as they are, and the answer, if there is one, has the status 401, 403
or 429; there is none exactly if the buckets refuse a token with a waiting time that is no duration.
And whatever the caller, an answer with a status from 400 to 499 means that the store and the queue
stay as they are. -/
theorem refused_requests_change_nothing {s : Settings Float}
    (made : s.app (.signed secret) = .ok app) {resource : Resource}
    (found : Resource.ofPath? r.path = some resource)
    (offered : resource.endpoint? r.method = some endpoint)
    (api : endpoint ≠ .live ∧ endpoint ≠ .ready) (b : Backend) :
    (∃ conv outcome b', (app.handle r).Ends b conv outcome b') ∧
      ∀ conv outcome b', (app.handle r).Ends b conv outcome b' →
        (r.Unwelcome secret endpoint conv → app.TurnedAway b b' conv outcome) ∧
          ∀ response, outcome = some response → response.IsRefusal → b.Untouched b' := by
  obtain ⟨judges, failOpen⟩ := of_settings made
  refine ⟨handle_hasEnd judges r b, fun conv outcome b' run => ⟨fun unwelcome => ?_, ?_⟩⟩
  · exact handle_turnsAway judges failOpen found offered api unwelcome run
  · rintro response rfl refused
    exact harmless_handle (looks_of_signed judges) r b conv response b' run refused

end App

namespace Sample

/-- Settings with a bucket of one token, which is filled at that rate per minute. -/
def settings (refillPerMinute : Float) : Settings Float :=
  { databaseUrl := "postgres://localhost/courier"
    redisUrl := "redis://localhost:6379"
    databaseConnections := 20
    bindAddress := "0.0.0.0:3000"
    authMode := .signed
    jwtSecret := "s3cret"
    introspectionUrl := none
    resendApiKey := none
    emailFrom := none
    workerConcurrency := 4
    leaseSeconds := 60
    pollWaitMillis := 2000
    sendLimitSeconds := 30
    maxAttempts := 3
    retryBaseSeconds := 300
    retryJitter := false
    rateCapacity := 1
    rateRefillPerMinute := refillPerMinute
    rateKey := .address
    rateTtlSeconds := 120
    healthTtlMillis := 5000
    reconnectMillis := 5000 }

def slowest : Float := 1e-300

def submission : Request :=
  { method := "POST"
    path := "/api/notifications"
    query := none
    headers := []
    body := "\x7b\x7d"
    peer := some "10.0.0.7" }

def backend : Backend := ⟨.empty, .empty, .ofSecond 0, 0⟩

def limitedApp (s : Settings Float) : App :=
  { policy := s.policy
    health := s.health
    limiter := ⟨⟨s.rateCapacity, s.rateRefillPerMinute / RateLimit.Amount.ofNat 60,
      s.rateTtl⟩, true⟩
    keyMode := s.rateKey
    validate := (Auth.Validator.signed "s3cret").validate }

theorem accepted_settings {refillPerMinute : Float}
    (usable : RateLimit.Amount.isUsable refillPerMinute = true) :
    (settings refillPerMinute).validate = .ok () := by
  have usable : RateLimit.Amount.isUsable (settings refillPerMinute).rateRefillPerMinute = true :=
    usable
  simp only [Settings.validate, usable]
  rfl

theorem app_settings {refillPerMinute : Float}
    (usable : RateLimit.Amount.isUsable refillPerMinute = true) :
    (settings refillPerMinute).app (.signed "s3cret") =
      .ok (limitedApp (settings refillPerMinute)) := by
  have usable : RateLimit.Amount.isUsable (settings refillPerMinute).rateRefillPerMinute = true :=
    usable
  unfold Settings.app Settings.buckets RateLimit.Config.perMinute
  rw [if_pos usable]
  rfl

theorem found_submission : Resource.ofPath? submission.path = some .notifications := by
  decide +kernel

end Sample

namespace App

/-- A submission without a credential is turned away, and nothing is written. -/
theorem refused_requests_of_stranger :
    (Sample.settings 10).app (.signed "s3cret") = .ok (Sample.limitedApp (Sample.settings 10)) ∧
      Resource.ofPath? Sample.submission.path = some .notifications ∧
      Resource.endpoint? .notifications Sample.submission.method = some .create ∧
      (Endpoint.create ≠ .live ∧ Endpoint.create ≠ .ready) ∧
      ∃ conv outcome b',
        ((Sample.limitedApp (Sample.settings 10)).handle Sample.submission).Ends Sample.backend conv
            outcome b' ∧
          (Sample.limitedApp (Sample.settings 10)).TurnedAway Sample.backend b' conv outcome := by
  have usable : RateLimit.Amount.isUsable (10 : Float) = true := by decide +kernel
  have made := Sample.app_settings usable
  have api : Endpoint.create ≠ .live ∧ Endpoint.create ≠ .ready := by decide
  obtain ⟨⟨conv, outcome, b', run⟩, turned⟩ :=
    refused_requests_change_nothing made Sample.found_submission rfl api Sample.backend
  refine ⟨made, Sample.found_submission, rfl, api, conv, outcome, b', run, ?_⟩
  apply (turned conv outcome b' run).1
  rintro p ⟨credential, _, given, _⟩
  cases given

/-- A stranger whose bucket is empty gets no answer at all, if a token takes longer to come than any
duration; the settings are accepted all the same. -/
theorem no_answer_to_stranger :
    (Sample.settings Sample.slowest).validate = .ok () ∧
      (Sample.settings Sample.slowest).app (.signed "s3cret") =
        .ok (Sample.limitedApp (Sample.settings Sample.slowest)) ∧
      Resource.endpoint? .notifications Sample.submission.method = some .create ∧
      Sample.submission.bearerToken? = none ∧
      let app := Sample.limitedApp (Sample.settings Sample.slowest)
      let emptied := (RateLimit.Buckets.empty.acquire app.limiter.config "ip:10.0.0.7"
          (.ofSecond 0)).2
      let reply := (emptied.acquire app.limiter.config "ip:10.0.0.7" (.ofSecond 0)).1
      (app.handle Sample.submission).Ends Sample.backend
        (app.taking "ip:10.0.0.7" (.ofSecond 0) (.ok reply)) none Sample.backend := by
  have usable : RateLimit.Amount.isUsable Sample.slowest = true := by decide +kernel
  refine ⟨Sample.accepted_settings usable, Sample.app_settings usable, rfl, rfl, ?_⟩
  intro app emptied reply
  have missing : app.limiter.admission? (.ok reply) = none := by decide +kernel
  have chosen : app.bucketKey Sample.submission = pure ("ip:10.0.0.7", none) := by
    unfold bucketKey
    rfl
  have limited : Resource.isLimited .notifications Sample.submission.method = true := rfl
  rw [handle_of_found app Sample.found_submission, if_pos limited, limited_eq,
    chosen, Prog.pure_bind]
  exact (guarded_breaks missing).bind_of_none rfl

end App
end Http
end Courier
