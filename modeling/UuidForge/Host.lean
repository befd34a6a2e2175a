import UuidForge.Counter
import UuidForge.State.Generator
import UuidForge.Time.Clock
import UuidForge.Uuid.Basic

/-!
# Hosts

A `Host` is all that generation reads or changes outside a single generator: entropy, clocks, users
and files of the machine, and what the generators of one program share. A generation is a step
`StateM Host`, which may change the host.
-/

namespace UuidForge

/-! ## Refreshing caches -/

/-- A snapshot of a value that is loaded again from time to time, with the loads still to come.
Readers see the last load that is complete. -/
structure RefreshingCache (α : Type) where
  snapshot : α
  upcoming : List α := []

/-- Loads the value again. When no new value comes, the snapshot stays. -/
def RefreshingCache.refresh {α : Type} (c : RefreshingCache α) : RefreshingCache α :=
  match c.upcoming with
  | [] => c
  | a :: rest => { snapshot := a, upcoming := rest }

/-! ## The host -/

/-- What generators run on. -/
structure Host where
  entropy : Entropy
  /-- The wall clock. -/
  wall : Instant
  /-- The monotonic clock. -/
  mono : Span
  files : FileTree := {}
  userId : BitVec 32 := 0
  groupId : BitVec 32 := 0
  /-- The hardware address of the host, looked up from time to time. -/
  address : RefreshingCache (Option NodeId) := ⟨none, []⟩
  /-- The node id that stands in when there is no hardware address. -/
  fallbackNode : NodeId
  /-- The clock that generators read unless they have another. -/
  clock : SystemClock
  /-- The generator state. Its clock domains are those of all generators without a clock of their
  own, and its random node id is that of all generators which ask for one that lasts. -/
  state : GeneratorState
  /-- The version 7 counter of all generators without their own. -/
  counter : Counter := {}
  /-- The last sequence number of the shared generator with the example layout. -/
  exampleSequence : BitVec 8 := 0xff

/-- A step on a host. -/
abbrev OnHost (α : Type) := StateM Host α

namespace Host

/-- A host at monotonic time zero with a state of random clock sequences. -/
def start (entropy : Entropy) (wall : Instant) (address : Option NodeId) (fallbackNode : NodeId) :
    Host :=
  let (state, entropy) := GeneratorState.create entropy
  { entropy, wall, mono := 0, fallbackNode, state
    address := ⟨address, []⟩
    clock := SystemClock.start wall 0 }

/-- The node id for the address that a cache shows, or the one that stands in. -/
def nodeOf (h : Host) (address : RefreshingCache (Option NodeId)) : NodeId :=
  address.snapshot.getD h.fallbackNode

/-- Draws octets. -/
def draw (n : Nat) : OnHost Octets := fun h =>
  let (xs, e) := h.entropy.draw n
  (xs, { h with entropy := e })

/-- Draws 16 octets for a UUID. -/
def drawUuid : OnHost Uuid := fun h =>
  let (xs, e) := h.entropy.draw 16
  (Uuid.ofOctets xs, { h with entropy := e })

/-- Draws a clock sequence. -/
def drawSequence : OnHost ClockSequence := fun h =>
  let (n, e) := h.entropy.drawSequence
  (n, { h with entropy := e })

/-- Draws a random node id. -/
def drawNode : OnHost NodeId := fun h =>
  let (n, e) := h.entropy.drawNode
  (n, { h with entropy := e })

/-- Reads the clock of the host. -/
def now : OnHost Ticks := fun h =>
  let (t, clock) := h.clock.read h.wall h.mono
  (t, { h with clock })

/-- Looks the hardware address up again. -/
def lookUp : OnHost Unit := fun h => ((), { h with address := h.address.refresh })

/-- The random node id of the state. -/
def nonVolatileNode : OnHost NodeId := fun h =>
  let (n, state, entropy) := h.state.nonVolatileNode h.entropy
  (n, { h with state, entropy })

/-- Advances a clock domain of the state. -/
def refresh (k : ClockKind) (t : Ticks) (node : Option NodeId) : OnHost ClockSequence := fun h =>
  let (n, state, files) := h.state.refresh k t node h.mono h.files
  (n, { h with state, files })

/-- Attaches the state to a file, or detaches it. -/
def attach (path : Option String) : OnHost Bool := fun h =>
  let (loaded, state, entropy) := h.state.attach path h.files h.entropy
  (loaded, { h with state, entropy })

/-- Saves the state. -/
def save : OnHost Bool := fun h =>
  let (written, state, files) := h.state.save h.mono h.files
  (written, { h with state, files })

/-- Starts the state over. -/
def reset : OnHost Unit := fun h =>
  let (state, entropy) := h.state.reset h.entropy
  ((), { h with state, entropy })

/-- Makes a new state in place of the old one, which is then given up. -/
def restart : OnHost Unit := fun h =>
  let (state, entropy) := GeneratorState.create h.entropy
  ((), { h with state, entropy, files := h.state.flush h.files })

/-- Puts a state in place of the one on the host, which is handed out. -/
def exchange (state : GeneratorState) : OnHost GeneratorState := fun h =>
  (h.state, { h with state })

end Host

end UuidForge
