import ResourcePool.Error

/-!
The configuration of a pool, the settings that change it, and what a usable one must satisfy.
-/

namespace ResourcePool

structure Config where
  maxSize : Nat := 10
  /-- How long `get` waits; without a limit it waits for ever. -/
  acquireTimeout : Option Duration := some (.ofSeconds 30)
  /-- A returned resource is checked before it is lent again. -/
  testOnCheckout : Bool := true
  /-- A resource is checked when it is returned. -/
  testOnCheckin : Bool := false
  name : String := "nbpool"
  deriving DecidableEq

namespace Config

inductive Setting
  | maxSize (n : Nat)
  | acquireTimeout (limit : Duration)
  | noAcquireTimeout
  | testOnCheckout (enabled : Bool)
  | testOnCheckin (enabled : Bool)
  | name (text : String)
  deriving DecidableEq

def set (c : Config) : Setting → Config
  | .maxSize n => { c with maxSize := n }
  | .acquireTimeout limit => { c with acquireTimeout := some limit }
  | .noAcquireTimeout => { c with acquireTimeout := none }
  | .testOnCheckout enabled => { c with testOnCheckout := enabled }
  | .testOnCheckin enabled => { c with testOnCheckin := enabled }
  | .name text => { c with name := text }

def ofSettings (settings : List Setting) : Config :=
  settings.foldl set {}

/-- A step of assembling a pool: one setting, or a whole configuration in place of the present
one. -/
inductive BuildStep
  | setting (s : Setting)
  | whole (settings : List Setting)

def applyStep (c : Config) : BuildStep → Config
  | .setting s => c.set s
  | .whole settings => ofSettings settings

def ofBuildSteps (steps : List BuildStep) : Config :=
  steps.foldl applyStep {}

/-- A pool has room for at least one resource, and a limit on waiting is not zero. The size is
looked at first. -/
def validate (c : Config) : Except PoolError Unit :=
  if c.maxSize = 0 then
    .error (.invalidConfig "max_size must be greater than 0")
  else if c.acquireTimeout.any Duration.isZero then
    .error (.invalidConfig
      "acquire_timeout must be non-zero; use no_acquire_timeout() to wait forever")
  else .ok ()

def isValid (c : Config) : Bool :=
  match c.validate with
  | .ok _ => true
  | .error _ => false

/-- The configurations after each of the settings. -/
def history (c : Config) : List Setting → List Config
  | [] => []
  | s :: rest => c.set s :: (c.set s).history rest

def written (c : Config) : String :=
  Text.record "PoolConfig" [
    ("max_size", toString c.maxSize),
    ("acquire_timeout", Text.optional (c.acquireTimeout.map Duration.text)),
    ("test_on_checkout", Text.truth c.testOnCheckout),
    ("test_on_checkin", Text.truth c.testOnCheckin),
    ("name", Text.quoted c.name)]

theorem validate_eq_ok_iff (c : Config) :
    c.validate = .ok () ↔ 0 < c.maxSize ∧ ∀ d ∈ c.acquireTimeout, d.isZero = false := by
  unfold validate
  rcases h : c.acquireTimeout with _ | d
  · by_cases hs : c.maxSize = 0 <;> simp [hs]
    omega
  · by_cases hs : c.maxSize = 0
    · simp [hs]
    · cases hz : d.isZero <;> simp [hs, hz]
      omega

end Config
end ResourcePool
