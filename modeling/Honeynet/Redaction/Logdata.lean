import Honeynet.Common.Path

/-!
# Secrets in the logdata of a sensor event

OpenCanary and the high-interaction backends report what they saw as one JSON object.  Before it
is stored, each service puts a marker in place of its fields with a sensitive name; what is
inside the other fields stays as it is.

* `redactLogdata`, `safeLogdata`: what the two services store.
* `redactWith_putAt_inside`: inside a sensitive field nothing is kept.
* `redactWith_putAt_outside`: outside of them everything is.
* `stored_eq_iff`: two secrets at one place leave the same trace if and only if the place is
  inside a sensitive field of the object itself, or they are the same.
-/

namespace Honeynet.Redaction

open Collections

/-- What stands in place of a secret. -/
def redacted : Value := .str "[redacted]"

/-- The object with every field of a sensitive name replaced by the marker. -/
def redactWith (sensitive : String → Bool) (logdata : Settings) : Settings :=
  logdata.map fun e => (e.1, if sensitive e.1 then redacted else e.2)

/-! ### The two services -/

section Services

-- `str.lower()`
variable (lower : String → String)

/-- Some marker occurs in the lowered name. -/
def marked (markers : List String) (name : String) : Bool :=
  markers.any fun marker => Text.contains marker.toList (lower name).toList

/-- `_SENSITIVE_KEYS` of OpenCanary. -/
def sensitiveKeys : List String :=
  ["authorization", "cookie", "key", "pass", "password", "secret", "token"]

def isSensitiveKey (key : String) : Bool := marked lower sensitiveKeys key

def redactLogdata (logdata : Settings) : Settings := redactWith (isSensitiveKey lower) logdata

/-- The tokens of a high-interaction service. -/
def credentialTokens : List String := ["pass", "secret", "token", "key", "auth"]

def safeLogdata (logdata : Settings) : Settings :=
  redactWith (marked lower credentialTokens) logdata

/-- A sensor that reports to the honeynet. -/
inductive Sensor
  | openCanary
  | highInteraction
  deriving DecidableEq, Repr

namespace Sensor

/-- The names whose fields the service of a sensor redacts. -/
def sensitive : Sensor → String → Bool
  | openCanary => isSensitiveKey lower
  | highInteraction => marked lower credentialTokens

/-- The logdata of the observation that the service stores. -/
def stored : Sensor → Settings → Settings
  | openCanary => redactLogdata lower
  | highInteraction => safeLogdata lower

theorem stored_eq (sensor : Sensor) (logdata : Settings) :
    sensor.stored lower logdata = redactWith (sensor.sensitive lower) logdata := by
  cases sensor with
  | openCanary => rfl
  | highInteraction => rfl

end Sensor

end Services

/-! ### What is kept of a place -/

section Places

variable {sensitive : String → Bool} {logdata : Settings}

/-- The object with something else at the place, as `Value.substitute` writes it. -/
def putAt (v : Value) (field : String) (path : List PathStep) (logdata : Settings) : Settings :=
  logdata.map fun e => if e.1 = field then (e.1, Value.substitute v path e.2) else e

/-- **Inside a sensitive field nothing is kept.** -/
theorem redactWith_putAt_inside {field : String} (hfield : sensitive field = true) (v : Value)
    (path : List PathStep) :
    redactWith sensitive (putAt v field path logdata) = redactWith sensitive logdata := by
  rw [redactWith, redactWith, putAt, List.map_map]
  refine List.map_congr_left fun e _ => ?_
  by_cases he : e.1 = field
  · rw [Function.comp_apply, if_pos he, he, if_pos hfield, if_pos hfield]
  · rw [Function.comp_apply, if_neg he]

/-- **Outside of them everything is.** -/
theorem redactWith_putAt_outside {field : String} (hfield : sensitive field = false) (v : Value)
    (path : List PathStep) :
    redactWith sensitive (putAt v field path logdata) =
      putAt v field path (redactWith sensitive logdata) := by
  rw [redactWith, redactWith, putAt, putAt, List.map_map, List.map_map]
  refine List.map_congr_left fun e _ => ?_
  by_cases he : e.1 = field
  · rw [Function.comp_apply, Function.comp_apply, if_pos he, if_pos he, he, hfield]
    rfl
  · rw [Function.comp_apply, Function.comp_apply, if_neg he, if_neg he]

theorem at_redactWith {field : String} (hfield : sensitive field = false) (path : List PathStep) :
    (Value.dict (redactWith sensitive logdata)).at? (.key field :: path) =
      (Value.dict logdata).at? (.key field :: path) := by
  have hlookup : List.lookup field (redactWith sensitive logdata) = List.lookup field logdata := by
    rw [redactWith]
    induction logdata with
    | nil => rfl
    | cons e logdata ih =>
      rw [List.map_cons, List.lookup_cons, List.lookup_cons, ih]
      cases he : field == e.1 with
      | true =>
        rw [← beq_iff_eq.mp he, hfield]
        rfl
      | false => rfl
  rw [Value.at?, Value.at?, Value.child, Value.child, hlookup]

/-- Two values at a place of the object, redacted. -/
theorem redactWith_putAt_eq_iff {field : String} {path : List PathStep}
    (hplace : ((Value.dict logdata).at? (.key field :: path)).isSome) (v w : Value) :
    redactWith sensitive (putAt v field path logdata) =
        redactWith sensitive (putAt w field path logdata) ↔
      sensitive field = true ∨ v = w := by
  constructor
  · intro heq
    by_cases hfield : sensitive field = true
    · exact Or.inl hfield
    · refine Or.inr ?_
      have hkept : sensitive field = false := Bool.eq_false_iff.mpr hfield
      rw [redactWith_putAt_outside hkept, redactWith_putAt_outside hkept] at heq
      rw [← at_redactWith hkept] at hplace
      exact Value.substitute_inj hplace (congrArg Value.dict heq)
  · rintro (hfield | rfl)
    · rw [redactWith_putAt_inside hfield, redactWith_putAt_inside hfield]
    · rfl

end Places

/-! ### Two secrets at one place -/

/-- A place in an object that ends at a key with a sensitive name. -/
structure SecretPlace (sensitive : String → Bool) (logdata : Settings) where
  field : String
  path : List PathStep
  /-- The key at which the place ends. -/
  name : String
  ends : (PathStep.key field :: path).getLast? = some (.key name)
  sensitive_name : sensitive name = true
  there : ((Value.dict logdata).at? (.key field :: path)).isSome

/-- **Two secrets leave the same trace if and only if their place is inside a sensitive field of
the object itself, or they are the same.** -/
theorem stored_eq_iff (lower : String → String) (sensor : Sensor) (logdata : Settings)
    (place : SecretPlace (sensor.sensitive lower) logdata) (v w : Value) :
    sensor.stored lower (putAt v place.field place.path logdata) =
        sensor.stored lower (putAt w place.field place.path logdata) ↔
      sensor.sensitive lower place.field = true ∨ v = w := by
  rw [Sensor.stored_eq, Sensor.stored_eq]
  exact redactWith_putAt_eq_iff place.there v w

/-- What a web login looks like to a sensor. -/
def loginLogdata (password : String) : Settings :=
  [("PATH", .str "/login"),
    ("REQUEST", .dict [("username", .str "root"), ("password", .str password)])]

/-- The password of the login. -/
def loginPassword : SecretPlace (Sensor.openCanary.sensitive Text.asciiLower)
    (loginLogdata "hunter2") where
  field := "REQUEST"
  path := [.key "password"]
  name := "password"
  ends := rfl
  sensitive_name := by decide +kernel
  there := by decide +kernel

/-- A header object whose own name is sensitive. -/
def authLogdata : Settings := [("AUTH_HEADERS", .dict [("token", .str "t-1")])]

def authToken : SecretPlace (Sensor.highInteraction.sensitive Text.asciiLower) authLogdata where
  field := "AUTH_HEADERS"
  path := [.key "token"]
  name := "token"
  ends := rfl
  sensitive_name := by decide +kernel
  there := by decide +kernel

/-- The token inside it leaves no trace. -/
theorem nested_token_hidden :
    Sensor.highInteraction.stored Text.asciiLower
        (putAt (.str "t-2") authToken.field authToken.path authLogdata) =
      Sensor.highInteraction.stored Text.asciiLower
        (putAt (.str "t-3") authToken.field authToken.path authLogdata) :=
  (stored_eq_iff Text.asciiLower .highInteraction authLogdata authToken _ _).mpr
    (Or.inl (by decide +kernel))

/-- **A password inside the request reaches the store.** -/
theorem nested_password_stored : ¬ ∀ (lower : String → String) (sensor : Sensor)
    (logdata : Settings) (place : SecretPlace (sensor.sensitive lower) logdata) (v w : Value),
    sensor.stored lower (putAt v place.field place.path logdata) =
      sensor.stored lower (putAt w place.field place.path logdata) := by
  intro h
  have hsame := h Text.asciiLower .openCanary _ loginPassword (.str "hunter2") (.str "letmein")
  rw [Sensor.stored_eq, Sensor.stored_eq, redactWith_putAt_eq_iff loginPassword.there] at hsame
  rcases hsame with hfield | heq
  · exact absurd hfield (by decide +kernel)
  · exact absurd (Value.str.inj heq) (by decide)

end Honeynet.Redaction
