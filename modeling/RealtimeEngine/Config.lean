import Mathlib.Data.Int.Notation

/-! Configuration (`internal/config/config.go`). `Load` reads the environment
and falls back to a default for what is unset or does not parse; it checks
neither the sign of a duration nor how two of them relate. -/
namespace RealtimeEngine
set_option autoImplicit false
set_option maxHeartbeats 250000

/-- `time.Duration`: nanoseconds. -/
abbrev Duration := ℤ

def millisecond : Duration := 1000000
def second : Duration := 1000 * millisecond
def minute : Duration := 60 * second
def hour : Duration := 60 * minute

/-- `float64` stays a parameter: `Load` only passes such values on. -/
structure Config (float64 : Type) where
  httpAddr : String
  nodeID : String
  jwtSecret : String
  sessionTTL : Duration
  graceDuration : Duration
  tickInterval : Duration
  finishedLinger : Duration
  waitingTTL : Duration
  gcInterval : Duration
  pingInterval : Duration
  pongTimeout : Duration
  rateLimitCapacity : float64
  rateLimitRefillRate : float64
  redisAddr : String
  leaseTTL : Duration

/-- What `Load` depends on: `os.Getenv`, which is empty for an unset variable,
and the two parsers of the standard library. -/
structure Environment (float64 : Type) where
  getenv : String → String
  parseDuration : String → Option Duration
  parseFloat : String → Option float64

section Load
variable {float64 : Type} (env : Environment float64)

def envOr (key fallback : String) : String :=
  if env.getenv key ≠ "" then env.getenv key else fallback

/-- `envDuration` and `envFloat` are the same function at two types. -/
def envParsed {α : Type} (parse : String → Option α) (key : String) (fallback : α) : α :=
  if env.getenv key ≠ "" then (parse (env.getenv key)).getD fallback else fallback

def envDuration (key : String) (fallback : Duration) : Duration :=
  envParsed env env.parseDuration key fallback

def envFloat (key : String) (fallback : float64) : float64 :=
  envParsed env env.parseFloat key fallback

def Config.load [NatCast float64] : Config float64 :=
  let httpAddr := envOr env "HTTP_ADDR" ":8080"
  { httpAddr := httpAddr
    nodeID := envOr env "NODE_ID" ("ws://localhost" ++ httpAddr ++ "/ws")
    jwtSecret := envOr env "JWT_SECRET" "dev-secret-change-me"
    sessionTTL := envDuration env "SESSION_TTL" hour
    graceDuration := envDuration env "GRACE_DURATION" (30 * second)
    tickInterval := envDuration env "TICK_INTERVAL" (100 * millisecond)
    finishedLinger := envDuration env "FINISHED_LINGER" (10 * second)
    waitingTTL := envDuration env "WAITING_TTL" (60 * second)
    gcInterval := envDuration env "GC_INTERVAL" (5 * second)
    pingInterval := envDuration env "PING_INTERVAL" (15 * second)
    pongTimeout := envDuration env "PONG_TIMEOUT" (10 * second)
    rateLimitCapacity := envFloat env "RATE_LIMIT_CAPACITY" (Nat.cast 20)
    rateLimitRefillRate := envFloat env "RATE_LIMIT_REFILL" (Nat.cast 10)
    redisAddr := envOr env "REDIS_ADDR" ""
    leaseTTL := envDuration env "LEASE_TTL" (15 * second) }

/-- A process with no variable set. -/
def bare (float64 : Type) : Environment float64 where
  getenv := fun _ => ""
  parseDuration := fun _ => none
  parseFloat := fun _ => none

end Load
end RealtimeEngine
