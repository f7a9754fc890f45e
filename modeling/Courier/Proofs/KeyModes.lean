import Courier.Proofs.Serving

/-!
The two ways to choose the bucket of a request. Buckets belong to addresses, or to callers as far as
there are any. The choice decides whose bucket a request is charged to, and nothing else: a caller
who is known from the choice is not judged again, and yet is the same as the one who would have been
judged.
-/
namespace Courier.Http

theorem principalKey_ne_addressKey (subject address : String) :
    "principal:" ++ subject ≠ "ip:" ++ address := by
  intro same
  have letters := congrArg String.toList same
  simp [String.toList_append] at letters

theorem principalKey_inj {s t : String} (same : "principal:" ++ s = "principal:" ++ t) : s = t := by
  have letters := congrArg String.toList same
  simp only [String.toList_append, List.append_cancel_left_eq] at letters
  exact String.toList_injective letters

namespace Request

variable {judge : String → Auth.Judgement} {r : Request}

/-- The caller whom the credential of a request shows, if it is accepted. -/
def bearer? (judge : String → Auth.Judgement) (r : Request) : Option Principal :=
  r.bearerToken?.bind fun credential => (judge credential).toOption

/-- The bucket that a request is charged to when buckets belong to callers. -/
def callerKey (judge : String → Auth.Judgement) (r : Request) : String :=
  match r.bearer? judge with
  | some p => "principal:" ++ p.subject
  | none => "ip:" ++ r.clientAddress

theorem bearer?_eq_some {p : Principal} : r.bearer? judge = some p ↔
    ∃ credential, r.bearerToken? = some credential ∧ judge credential = .ok p := by
  unfold bearer?
  rw [Option.bind_eq_some_iff]
  refine exists_congr fun credential => and_congr_right fun _ => ?_
  cases judge credential <;> simp [Except.toOption]

theorem callerKey_of_bearer {p : Principal} (shown : r.bearer? judge = some p) :
    r.callerKey judge = "principal:" ++ p.subject := by
  rw [callerKey, shown]

theorem callerKey_of_none (unshown : r.bearer? judge = none) :
    r.callerKey judge = "ip:" ++ r.clientAddress := by
  rw [callerKey, unshown]

/-- A blank credential counts as little when the bucket is chosen as when the caller is judged. -/
theorem bearer?_eq_of_text (rejects : ∃ e, judge "" = .error e) (r : Request) :
    r.bearer? judge = r.bearerText?.bind fun credential => (judge credential).toOption := by
  unfold bearer?
  rw [bearerToken?_eq]
  cases r.bearerText? with
  | none => rfl
  | some credential =>
      by_cases blank : credential = ""
      · obtain ⟨e, rejected⟩ := rejects
        subst blank
        rw [Option.filter_some_neg (by simp), Option.bind_some, rejected]
        rfl
      · rw [Option.filter_some_pos (by simp [blank])]

end Request

namespace App

variable {app : App} {judge : String → Auth.Judgement} {resource : Resource} {r : Request}

def judging (app : App) (mode : KeyMode) (judge : String → Auth.Judgement) : App :=
  { app with keyMode := mode, validate := fun credential => pure (judge credential) }

theorem bucketKey_address (app : App) (judge : String → Auth.Judgement) (r : Request) :
    (app.judging .address judge).bucketKey r = pure ("ip:" ++ r.clientAddress, none) := by
  unfold bucketKey
  cases r.bearerText? <;> rfl

theorem bucketKey_principal (app : App) (rejects : ∃ e, judge "" = .error e) (r : Request) :
    (app.judging .principal judge).bucketKey r = pure (r.callerKey judge, r.bearer? judge) := by
  unfold Request.callerKey
  rw [Request.bearer?_eq_of_text rejects]
  unfold bucketKey
  cases r.bearerText? with
  | none => rfl
  | some credential =>
      show (pure (judge credential) >>= _ : Prog _) = _
      cases judged : judge credential with
      | error e => simp [Except.toOption, judged]
      | ok p => simp [Except.toOption, judged]

def judged (judge : String → Auth.Judgement) (r : Request) : Auth.Judgement :=
  match r.bearerToken? with
  | some credential => judge credential
  | none => .error missingToken

theorem caller_unknown (app : App) (mode : KeyMode) (judge : String → Auth.Judgement)
    (r : Request) :
    (app.judging mode judge).caller none r = pure (judged judge r) := by
  unfold caller judged
  cases r.bearerToken? <;> rfl

theorem caller_known (app : App) (mode : KeyMode) (judge : String → Auth.Judgement) (r : Request) :
    (app.judging mode judge).caller (r.bearer? judge) r = pure (judged judge r) := by
  cases shown : r.bearer? judge with
  | none => exact caller_unknown app mode judge r
  | some p =>
      obtain ⟨credential, given, accepted⟩ := Request.bearer?_eq_some.mp shown
      simp only [caller, judged, given, accepted]

theorem administrator_known (app : App) (judge : String → Auth.Judgement) (r : Request) :
    (app.judging .principal judge).administrator (r.bearer? judge) r =
      (app.judging .address judge).administrator none r := by
  simp only [administrator, caller_known, caller_unknown]

theorem dispatch_known (app : App) (judge : String → Auth.Judgement) (resource : Resource)
    (r : Request) :
    (app.judging .principal judge).dispatch (r.bearer? judge) resource r =
      (app.judging .address judge).dispatch none resource r := by
  unfold dispatch
  cases resource.endpoint? r.method with
  | none => rfl
  | some endpoint =>
      cases endpoint with
      | live | ready => rfl
      | list | create | «show» => simp only [serve, caller_known, caller_unknown]
      | retryFailed | retryOne | retryStatus | stats => simp only [serve, administrator_known]

/-- Once the bucket of a request is chosen, the work is the same in both ways, and no other bucket
is asked. -/
theorem handle_judging (app : App) (rejects : ∃ e, judge "" = .error e)
    (found : Resource.ofPath? r.path = some resource)
    (limited : resource.isLimited r.method = true) :
    ∃ work : Prog Response, work.Only TakesNothing ∧
      (app.judging .principal judge).handle r =
        app.guarded (r.callerKey judge) r work >>= dress resource r ∧
      (app.judging .address judge).handle r =
        app.guarded ("ip:" ++ r.clientAddress) r work >>= dress resource r := by
  have judges (credential : String) :
      ((app.judging .address judge).validate credential).Only TakesNothing := trivial
  refine ⟨(app.judging .address judge).dispatch none resource r,
    dispatch_only takesNothing_of_isWork takesNothing_of_isCheck judges none resource r, ?_, ?_⟩
  · rw [handle_of_found _ found, if_pos limited, limited_eq, bucketKey_principal app rejects,
      Prog.pure_bind, ← dispatch_known]
    rfl
  · rw [handle_of_found _ found, if_pos limited, limited_eq, bucketKey_address, Prog.pure_bind]
    rfl

/-- The bucket of a caller is chosen exactly for the credentials that are accepted as that
caller's. -/
theorem callerKey_eq_iff {s : String} : r.callerKey judge = "principal:" ++ s ↔
    ∃ credential p, r.bearerToken? = some credential ∧ judge credential = .ok p ∧
      p.subject = s := by
  constructor
  · intro own
    cases shown : r.bearer? judge with
    | none =>
        rw [Request.callerKey_of_none shown] at own
        exact absurd own.symm (principalKey_ne_addressKey s r.clientAddress)
    | some p =>
        rw [Request.callerKey_of_bearer shown] at own
        obtain ⟨credential, given, accepted⟩ := Request.bearer?_eq_some.mp shown
        exact ⟨credential, p, given, accepted, principalKey_inj own⟩
  · rintro ⟨credential, p, given, accepted, rfl⟩
    exact Request.callerKey_of_bearer (Request.bearer?_eq_some.mpr ⟨credential, given, accepted⟩)

theorem callerKey_of_unaccepted
    (unaccepted : ∀ credential p, r.bearerToken? = some credential → judge credential ≠ .ok p) :
    r.callerKey judge = "ip:" ++ r.clientAddress := by
  apply Request.callerKey_of_none
  refine Option.eq_none_iff_forall_ne_some.mpr fun p shown => ?_
  obtain ⟨credential, given, accepted⟩ := Request.bearer?_eq_some.mp shown
  exact unaccepted credential p given accepted

/-- A request whose bucket is chosen by its caller, beside the same request with the bucket of its
address. -/
structure SameCaller (app : App) (judge : String → Auth.Judgement) (resource : Resource)
    (r : Request) (key : String) (known : Option Principal) (user : Auth.Judgement) : Prop where
  byCaller : (app.judging .principal judge).bucketKey r = pure (key, known)
  byAddress : (app.judging .address judge).bucketKey r = pure ("ip:" ++ r.clientAddress, none)
  caller : (app.judging .principal judge).caller known r = pure user
  caller_alike : (app.judging .address judge).caller none r = pure user
  administrator_alike : (app.judging .principal judge).administrator known r =
    (app.judging .address judge).administrator none r
  /-- An admitted request is answered alike. -/
  work_alike : ∃ work,
    (app.judging .principal judge).handle r = app.guarded key r work >>= dress resource r ∧
    (app.judging .address judge).handle r =
      app.guarded ("ip:" ++ r.clientAddress) r work >>= dress resource r
  spends : Spends app.limiter.config key TakesNothing ((app.judging .principal judge).handle r)
  spends_address : Spends app.limiter.config ("ip:" ++ r.clientAddress) TakesNothing
    ((app.judging .address judge).handle r)
  own_iff : ∀ s, key = "principal:" ++ s ↔
    ∃ credential p, r.bearerToken? = some credential ∧ judge credential = .ok p ∧ p.subject = s
  other : (∀ credential p, r.bearerToken? = some credential → judge credential ≠ .ok p) →
    key = "ip:" ++ r.clientAddress
  apart : ∀ s, "principal:" ++ s ≠ "ip:" ++ r.clientAddress

/-- Whether buckets belong to callers or to addresses: on a path with a limit, a request that is
admitted is judged to be from the same caller, or is rejected for the same reason, and is answered
alike. Where buckets belong to callers, a token is taken from the bucket of a caller if the
request's own credential is accepted as that caller's, and otherwise from the bucket of an address,
which is no caller's. -/
theorem authentication_ignores_keyMode (app : App) (rejects : ∃ e, judge "" = .error e)
    (found : Resource.ofPath? r.path = some resource)
    (limited : resource.isLimited r.method = true) :
    ∃ key known user, SameCaller app judge resource r key known user := by
  obtain ⟨work, only, byCaller, byAddress⟩ := handle_judging app rejects found limited
  have spends (key : String) : Spends app.limiter.config key TakesNothing
      (app.guarded key r work >>= dress resource r) := (guarded_spends only).bind fun _ => trivial
  exact ⟨r.callerKey judge, r.bearer? judge, judged judge r,
    { byCaller := bucketKey_principal app rejects r
      byAddress := bucketKey_address app judge r
      caller := caller_known app _ judge r
      caller_alike := caller_unknown app _ judge r
      administrator_alike := administrator_known app judge r
      work_alike := ⟨work, byCaller, byAddress⟩
      spends := byCaller ▸ spends _
      spends_address := byAddress ▸ spends _
      own_iff := fun _ => callerKey_eq_iff
      other := callerKey_of_unaccepted
      apart := fun s => principalKey_ne_addressKey s r.clientAddress }⟩

end App

namespace Sample

def app : App :=
  { policy := ⟨3, .zero, .ofSeconds 86400, false⟩
    health := .standard
    limiter := ⟨⟨10, 1, .ofSeconds 600⟩, true⟩
    keyMode := .address
    validate := (Auth.Validator.signed "s3cret").validate }

def judge (credential : String) : Auth.Judgement :=
  if credential = "token" then .ok ⟨"ann", ["admin"]⟩ else .error (.auth "Invalid token")

/-- The first of two credentials counts, and blanks around it do not. -/
def request : Request :=
  { method := "POST"
    path := "/api/admin/notifications/retry-failed"
    query := none
    headers := [("Authorization", "Bearer   token "), ("authorization", "Bearer other")]
    body := ""
    peer := some "10.0.0.7" }

end Sample

/-- The caller's bucket is charged, or the address's, and the caller is judged the same. -/
theorem App.authentication_of_padded_token :
    (∃ e, Sample.judge "" = .error e) ∧
      Resource.ofPath? Sample.request.path = some .retryFailed ∧
      Resource.isLimited .retryFailed Sample.request.method = true ∧
      (∃ known user,
        (Sample.app.judging .principal Sample.judge).caller known Sample.request = pure user ∧
        (Sample.app.judging .address Sample.judge).caller none Sample.request = pure user) ∧
      App.Spends Sample.app.limiter.config "principal:ann" App.TakesNothing
        ((Sample.app.judging .principal Sample.judge).handle Sample.request) ∧
      App.Spends Sample.app.limiter.config "ip:10.0.0.7" App.TakesNothing
        ((Sample.app.judging .address Sample.judge).handle Sample.request) := by
  have rejects : ∃ e, Sample.judge "" = .error e := ⟨_, rfl⟩
  have found : Resource.ofPath? Sample.request.path = some .retryFailed := by decide +kernel
  have limited : Resource.isLimited .retryFailed Sample.request.method = true := rfl
  have token : Sample.request.bearerToken? = some "token" := by decide +kernel
  have address : "ip:" ++ Sample.request.clientAddress = "ip:10.0.0.7" := by decide +kernel
  obtain ⟨key, known, user, same⟩ :=
    App.authentication_ignores_keyMode Sample.app rejects found limited
  have own : key = "principal:ann" :=
    (same.own_iff "ann").mpr ⟨"token", ⟨"ann", ["admin"]⟩, token, rfl, rfl⟩
  exact ⟨rejects, found, limited, ⟨known, user, same.caller, same.caller_alike⟩, own ▸ same.spends,
    address ▸ same.spends_address⟩

end Courier.Http
