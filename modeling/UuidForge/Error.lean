import UuidForge.Time.Calendar
import UuidForge.Time.Scale

/-!
# Errors

Why an operation on UUIDs or a generator fails. Every cause is a constructor; `Error.message` is
the one place that puts causes into words.

* `bind_eq_ok`: what succeeds in two steps succeeds in each.
* `map_eq_error_iff`, `map_eq_ok_iff`: a change of the result changes no error.
-/

namespace UuidForge

/-- What a layout or a generator does not offer. -/
inductive Unsupported
  | timestamp
  | clockSequence
  | nodeId
  | domain
  | localId
  | hashData
  | randomData
  | customData
  | nameBased
  | dceSecurity
  | reservedVersion
  | timeBasedVersion
  | nodeRequired
  | builderVersion
  | builderInputs
  deriving DecidableEq, Repr

/-- The words for what is not offered. -/
def Unsupported.message : Unsupported → String
  | timestamp => "timestamp"
  | clockSequence => "clock sequence"
  | nodeId => "node id"
  | domain => "DCE Security domain"
  | localId => "local id"
  | hashData => "hash data"
  | randomData => "random data"
  | customData => "custom data"
  | nameBased => "name-based generation"
  | dceSecurity => "DCE Security generation"
  | reservedVersion => "reserved version"
  | timeBasedVersion => "time-based generation of this version"
  | nodeRequired => "version 1 requires a node id"
  | builderVersion => "custom state for this version"
  | builderInputs => "version 7 has no node id or clock sequence"

/-- A value outside its bounds. -/
inductive OutOfRange
  /-- A point of time before the first or after the last one that can be told, in ticks. -/
  | timestamp (first last : Int)
  /-- A clock sequence with more bits than its field. -/
  | clockSequence (width : Nat)
  /-- A node id that has not six octets. -/
  | nodeLength
  /-- A pool without room. -/
  | capacity
  deriving DecidableEq, Repr

namespace OutOfRange

/-- The name of the value. -/
def name : OutOfRange → String
  | timestamp .. => "timestamp"
  | clockSequence .. => "clock sequence"
  | nodeLength => "node id length"
  | capacity => "capacity"

/-- The smallest and the largest value that are accepted. -/
def bounds : OutOfRange → String × String
  | timestamp first last => (Calendar.rfc3339 first, Calendar.rfc3339 last)
  | clockSequence width => ("0", toString (1 <<< width - 1))
  | nodeLength => ("6", "6")
  | capacity => ("1", toString 0xffffffffffffffff)

/-- The range that was missed, in words. -/
def message (r : OutOfRange) : String :=
  r.name ++ " must be between " ++ r.bounds.1 ++ " and " ++ r.bounds.2

end OutOfRange

/-- Why an operation cannot be completed. -/
inductive Invalid
  /-- A digest of fewer than 16 octets. -/
  | shortDigest
  /-- A pool member of another version or variant than the first one. -/
  | factoryChanged
  /-- A custom layout that cannot be laid out. -/
  | noLayout
  deriving DecidableEq, Repr

/-- The words for a cause. -/
def Invalid.message : Invalid → String
  | shortDigest => "hash output is shorter than 128 bits"
  | factoryChanged => "generator factory changed the version or variant"
  | noLayout => "no layout"

/-- Why a component access or a generation fails. -/
inductive Error
  | notSupported (what : Unsupported)
  | outOfRange (what : OutOfRange)
  | invalidOperation (why : Invalid)
  /-- The generator was disposed of. -/
  | disposed
  /-- The platform has no such ids. -/
  | platformNotSupported
  /-- The clock stood still for as long as a generator is ready to wait. A generator that waits
  without bound does not fail this way: it waits on. -/
  | clockStalled
  deriving DecidableEq, Repr

/-- The error in words. -/
def Error.message : Error → String
  | notSupported what => "operation not supported: " ++ what.message
  | outOfRange what => what.message
  | invalidOperation why => "invalid operation: " ++ why.message
  | disposed => "the generator has been disposed"
  | platformNotSupported => "operation not supported on this platform"
  | clockStalled => "the clock does not advance"

/-! ## Outcomes -/

/-- **Two steps succeed exactly if both do.** -/
theorem bind_eq_ok {ε α β : Type} {x : Except ε α} {f : α → Except ε β} {b : β} :
    (x >>= f) = .ok b ↔ ∃ a, x = .ok a ∧ f a = .ok b := by
  cases x with
  | error e => simp [bind, Except.bind]
  | ok a => simp [bind, Except.bind]

theorem map_eq_error_iff {ε α β : Type} {x : Except ε α} {f : α → β} {e : ε} :
    x.map f = .error e ↔ x = .error e := by
  cases x with
  | error e' => simp [Except.map]
  | ok a => simp [Except.map]

theorem map_eq_ok_iff {ε α β : Type} {x : Except ε α} {f : α → β} {b : β} :
    x.map f = .ok b ↔ ∃ a, x = .ok a ∧ f a = b := by
  cases x with
  | error e => simp [Except.map]
  | ok a => simp [Except.map]

end UuidForge
