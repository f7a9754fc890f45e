import Courier.Decimal.Reading
import Courier.Health.Check
import Courier.Http.Handler
import Courier.Text.Lowercase
import Courier.Width
import Courier.Worker

namespace Courier

inductive AuthMode where
  | signed
  | introspection
  deriving DecidableEq

inductive SettingsError where
  | authMode (given : String)
  | keyMode (given : String)
  | databaseMissing
  | malformed (name kind : String)
  | noAttempts
  | noWorkers
  | noCapacity
  | noRefill
  | leaseTooShort
  | secretMissing
  | introspectionMissing
  deriving DecidableEq

namespace SettingsError

def message : SettingsError → String
  | authMode given => s!"AUTH_MODE must be 'local' or 'introspection', got '{given}'"
  | keyMode given => s!"RATE_LIMIT_KEY must be 'ip' or 'principal', got '{given}'"
  | databaseMissing => "DATABASE_URL environment variable is required"
  | malformed name kind => s!"{name} must be a valid {kind}"
  | noAttempts => "MAX_ATTEMPTS must be at least 1"
  | noWorkers => "WORKER_CONCURRENCY must be at least 1"
  | noCapacity => "RATE_LIMIT_CAPACITY must be at least 1"
  | noRefill => "RATE_LIMIT_REFILL_PER_MINUTE must be a positive number"
  | leaseTooShort => "EMITTER_TIMEOUT_SECONDS must be shorter than WORKER_LEASE_SECONDS"
  | secretMissing => "JWT_SECRET environment variable is required when AUTH_MODE=local"
  | introspectionMissing =>
    "AUTH_INTROSPECTION_URL environment variable is required when AUTH_MODE=introspection"

end SettingsError

/-- The settings; the refill of rate buckets may be any kind of amount. -/
structure Settings (α : Type) where
  databaseUrl : String
  redisUrl : String
  databaseConnections : Nat
  bindAddress : String
  authMode : AuthMode
  jwtSecret : String
  introspectionUrl : Option String
  resendApiKey : Option String
  emailFrom : Option String
  workerConcurrency : Nat
  leaseSeconds : Nat
  pollWaitMillis : Nat
  sendLimitSeconds : Nat
  maxAttempts : Nat
  retryBaseSeconds : Nat
  retryJitter : Bool
  rateCapacity : Nat
  rateRefillPerMinute : α
  rateKey : Http.KeyMode
  rateTtlSeconds : Nat
  healthTtlMillis : Nat
  reconnectMillis : Nat

namespace Settings

abbrev Environment := List (String × String)

section Reading

variable (env : Environment)

def variableOr (name default : String) : String := (env.lookup name).getD default

def parsed {β : Type} (name default kind : String) (parse : String → Option β) :
    Except SettingsError β :=
  match parse (variableOr env name default) with
  | some b => .ok b
  | none => .error (.malformed name kind)

def word32 (name default : String) : Except SettingsError Nat :=
  parsed env name default "u32" fun s => Text.naturalBelow? Width.limit32 s.toList

def word64 (name default : String) : Except SettingsError Nat :=
  parsed env name default "u64" fun s => Text.naturalBelow? Width.limit64 s.toList

def index (name default : String) : Except SettingsError Nat :=
  parsed env name default "usize" fun s => Text.naturalBelow? Width.limit64 s.toList

def number (name default : String) : Except SettingsError Float :=
  parsed env name default "f64" Decimal.float?

def flag (name default : String) : Except SettingsError Bool :=
  parsed env name default "bool" fun s =>
    if s = "true" then some true else if s = "false" then some false else none

def readAuthMode : Except SettingsError AuthMode :=
  let given := Text.lowercased (variableOr env "AUTH_MODE" "local")
  if given = "local" then .ok .signed
  else if given = "introspection" then .ok .introspection
  else .error (.authMode given)

def readKeyMode : Except SettingsError Http.KeyMode :=
  let given := Text.lowercased (variableOr env "RATE_LIMIT_KEY" "ip")
  if given = "ip" then .ok .address
  else if given = "principal" then .ok .principal
  else .error (.keyMode given)

def read : Except SettingsError (Settings Float) := do
  let authMode ← readAuthMode env
  let rateKey ← readKeyMode env
  let databaseUrl ←
    match env.lookup "DATABASE_URL" with
    | some url => Except.ok url
    | none => Except.error .databaseMissing
  pure {
    databaseUrl
    redisUrl := variableOr env "REDIS_URL" "redis://localhost:6379"
    databaseConnections := ← word32 env "DB_MAX_CONNECTIONS" "20"
    bindAddress := variableOr env "API_BIND_ADDR" "0.0.0.0:3000"
    authMode
    jwtSecret := variableOr env "JWT_SECRET" ""
    introspectionUrl := env.lookup "AUTH_INTROSPECTION_URL"
    resendApiKey := env.lookup "RESEND_API_KEY"
    emailFrom := env.lookup "EMAIL_FROM"
    workerConcurrency := ← index env "WORKER_CONCURRENCY" "4"
    leaseSeconds := ← word64 env "WORKER_LEASE_SECONDS" "60"
    pollWaitMillis := ← word64 env "WORKER_POLL_WAIT_MS" "2000"
    sendLimitSeconds := ← word64 env "EMITTER_TIMEOUT_SECONDS" "30"
    maxAttempts := ← word32 env "MAX_ATTEMPTS" "3"
    retryBaseSeconds := ← word64 env "RETRY_BASE_DELAY_SECONDS" "300"
    retryJitter := ← flag env "RETRY_JITTER" "false"
    rateCapacity := ← word32 env "RATE_LIMIT_CAPACITY" "10"
    rateRefillPerMinute := ← number env "RATE_LIMIT_REFILL_PER_MINUTE" "10"
    rateKey
    rateTtlSeconds := ← word64 env "RATE_LIMIT_BUCKET_TTL_SECONDS" "120"
    healthTtlMillis := ← word64 env "HEALTH_CACHE_TTL_MS" "5000"
    reconnectMillis := ← word64 env "HEALTH_RECONNECT_INTERVAL_MS" "5000" }

end Reading

variable {α : Type} [RateLimit.Amount α]

def validate (s : Settings α) : Except SettingsError Unit :=
  if s.maxAttempts = 0 then .error .noAttempts
  else if s.workerConcurrency = 0 then .error .noWorkers
  else if s.rateCapacity = 0 then .error .noCapacity
  else if !RateLimit.Amount.isUsable s.rateRefillPerMinute then .error .noRefill
  else if s.leaseSeconds ≤ s.sendLimitSeconds then .error .leaseTooShort
  else .ok ()

def ofEnvironment (env : Environment) : Except SettingsError (Settings Float) := do
  let s ← read env
  validate s
  pure s

/-- What only a program that authenticates callers needs. -/
def validateAuth (s : Settings α) : Except SettingsError Unit :=
  match s.authMode with
  | .signed => if s.jwtSecret = "" then .error .secretMissing else .ok ()
  | .introspection =>
    if s.introspectionUrl.isNone then .error .introspectionMissing else .ok ()

def leaseFor (s : Settings α) : Duration := .ofSeconds s.leaseSeconds

def pollWait (s : Settings α) : Duration := .ofMillis s.pollWaitMillis

def sendLimit (s : Settings α) : Duration := .ofSeconds s.sendLimitSeconds

def retryBase (s : Settings α) : Duration := .ofSeconds s.retryBaseSeconds

def rateTtl (s : Settings α) : Duration := .ofSeconds s.rateTtlSeconds

def healthTtl (s : Settings α) : Duration := .ofMillis s.healthTtlMillis

def reconnectInterval (s : Settings α) : Duration := .ofMillis s.reconnectMillis

def longestDelay : Duration := .ofSeconds 86400

def policy (s : Settings α) : Retry.Policy :=
  { maxAttempts := s.maxAttempts
    baseDelay := s.retryBase
    maxDelay := longestDelay
    jitter := s.retryJitter }

def health (s : Settings α) : Health.Config :=
  { cacheTtl := s.healthTtl
    reconnectInterval := s.reconnectInterval
    probeLimit := Health.Config.standard.probeLimit }

def buckets (s : Settings α) : Except Error (RateLimit.Config α) :=
  RateLimit.Config.perMinute s.rateCapacity s.rateRefillPerMinute s.rateTtl

/-- How credentials are judged under these settings. -/
def validator (s : Settings α) : Except Error Auth.Validator :=
  match s.authMode, s.introspectionUrl with
  | .signed, _ => .ok (.signed s.jwtSecret)
  | .introspection, some url => .ok (.remote url)
  | .introspection, none =>
    .error (.config "AUTH_INTROSPECTION_URL is required for introspection")

def app (s : Settings Float) (v : Auth.Validator) : Except Error Http.App := do
  let buckets ← s.buckets
  pure {
    policy := s.policy
    health := s.health
    limiter := ⟨buckets, true⟩
    keyMode := s.rateKey
    validate := v.validate }

end Settings
end Courier
