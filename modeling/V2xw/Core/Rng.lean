import V2xw.Lib.Layout
import V2xw.Lib.Mealy

/-!
# Random-number streams

Every draw comes from a stream, a keystream with a position. Its key is a digest of who draws and
what for. The registry keeps the streams in shards: a check-out takes the stream of a key out of its
slot, and dropping the guard puts it back. The scope of one frame on a link is single-use: its
stream is derived at each check-out and is not kept.

The digest and the keystream are parameters.

## Main definitions

* `Core.EntityRef.encode`, `Core.material` — what the key of a stream is derived from.
* `Core.RngStream.draw` — a draw.
* `Core.RngRegistry.checkout`, `Core.RngRegistry.stream`, `Core.RngRegistry.drop` — the registry.
* `Core.Draws.step` — operations of any tasks on one registry.
-/

namespace V2xw.Core

open Layout

/-! ## Keys -/

/-- What a draw is for. -/
inductive RngDomain
  | spawn
  | mobility
  | laneChange
  | gnss
  | shadow
  | fading
  | macBackoff
  | spsSelection
  | abstractRx
  | attack
  | serviceTime
  | backend
  | collusion
  | perception
  | report
  | crypto
  | desiredSpeed
  | reactionTime
  | plugin (code : UInt32)
deriving DecidableEq

/-- The number of a domain in the key of a stream. -/
def RngDomain.code : RngDomain → UInt32
  | .spawn => 1
  | .mobility => 2
  | .laneChange => 3
  | .gnss => 4
  | .shadow => 5
  | .fading => 6
  | .macBackoff => 7
  | .spsSelection => 8
  | .abstractRx => 9
  | .attack => 10
  | .serviceTime => 11
  | .backend => 12
  | .collusion => 13
  | .perception => 14
  | .report => 15
  | .crypto => 16
  | .desiredSpeed => 17
  | .reactionTime => 18
  | .plugin code => code

/-- Who draws. -/
inductive EntityRef
  | global
  | actor (index : UInt32)
  | node (index : UInt32)
  | link (tx rx : UInt32)
  | linkFrame (tx rx : UInt32) (frame : UInt64)
  | lane (index : UInt32)
  | signal (index : UInt32)
  | custom (kind : UInt16) (id : UInt64)
deriving DecidableEq

namespace EntityRef

/-- The scope is drawn from once: its key has a counter in it. -/
def isSingleUse : EntityRef → Bool
  | .linkFrame .. => true
  | _ => false

/-- The bytes of an entity: a tag and its numbers. -/
def encode : EntityRef → Bytes
  | .global => [0x00]
  | .actor a => 0x01 :: put a
  | .node n => 0x02 :: put n
  | .link tx rx => 0x03 :: (put tx ++ put rx)
  | .linkFrame tx rx frame => 0x04 :: (put tx ++ put rx ++ put frame)
  | .lane l => 0x05 :: put l
  | .signal s => 0x06 :: put s
  | .custom kind id => 0x07 :: (put kind ++ put id)

end EntityRef

/-- What the key of a stream is the digest of. -/
def material (masterSeed : UInt64) (domain : RngDomain) (entity : EntityRef) : Bytes :=
  put masterSeed ++ put domain.code ++ entity.encode

/-- The key of a slot. -/
abbrev Key := RngDomain × EntityRef

/-! ## Streams -/

/-- The digest, and the words of the keystream of a key. -/
structure Cipher where
  sha256 : Bytes → Bytes
  chacha12 : Bytes → ℕ → UInt32

/-- A stream: the key of its keystream, and how many words of that are read. -/
structure RngStream where
  key : Bytes
  wordPos : ℕ
deriving DecidableEq

/-- A draw. The samplers draw 64 bits at a time. -/
inductive Draw
  | u64
  | u32
  | fillBytes (n : ℕ)
deriving DecidableEq

/-- What is drawn. -/
inductive Value
  | u64 (v : UInt64)
  | u32 (v : UInt32)
  | bytes (bs : Bytes)
deriving DecidableEq

variable (c : Cipher)

namespace RngStream

/-- The stream of a key, at its first word. -/
def derive (masterSeed : UInt64) (key : Key) : RngStream :=
  ⟨c.sha256 (material masterSeed key.1 key.2), 0⟩

/-- A word of the keystream, counted from the position. -/
def word (s : RngStream) (i : ℕ) : UInt32 := c.chacha12 s.key (s.wordPos + i)

/-- A draw: 64 bits are two words with the low one first, and bytes are those of whole words. -/
def draw (s : RngStream) : Draw → Value × RngStream
  | .u64 => (.u64 ((s.word c 1).toUInt64 <<< 32 ||| (s.word c 0).toUInt64),
      { s with wordPos := s.wordPos + 2 })
  | .u32 => (.u32 (s.word c 0), { s with wordPos := s.wordPos + 1 })
  | .fillBytes n => (.bytes (((List.range ((n + 3) / 4)).flatMap fun i => put (s.word c i)).take n),
      { s with wordPos := s.wordPos + (n + 3) / 4 })

/-- Consecutive draws. -/
def drawAll (s : RngStream) : List Draw → List (Draw × Value) × RngStream
  | [] => ([], s)
  | d :: ds =>
    let first := s.draw c d
    let rest := first.2.drawAll ds
    ((d, first.1) :: rest.1, rest.2)

end RngStream

/-! ## The registry -/

/-- The link as one word. -/
def linkWord (tx rx : UInt32) : UInt64 := tx.toUInt64 <<< 32 ||| rx.toUInt64

/-- The shard a key lives in. -/
def shardOf (key : Key) : ℕ :=
  let (a, b) : UInt64 × UInt64 :=
    match key.2 with
    | .global => (0, 0)
    | .actor x => (1, x.toUInt64)
    | .node x => (2, x.toUInt64)
    | .link tx rx => (3, linkWord tx rx)
    | .linkFrame tx rx frame => (4 ^^^ linkWord tx rx, frame)
    | .lane x => (5, x.toUInt64)
    | .signal x => (6, x.toUInt64)
    | .custom kind id => (7 ^^^ kind.toUInt64, id)
  let h := [key.1.code.toUInt64, a, b].foldl (fun h v => (h ^^^ v) * 0x00000100000001b3)
    (0xcbf29ce484222325 : UInt64)
  (h >>> 29).toNat % 64

/-- The slots of a shard. A slot without a stream is that of a stream checked out. -/
abbrev Shard := Key → Option (Option RngStream)

/-- The live streams of a run. -/
structure RngRegistry where
  masterSeed : UInt64
  shards : ℕ → Shard

/-- A stream checked out. One of a single-use scope has no home to return to. -/
structure RngGuard where
  home : Bool
  key : Key
  stream : Option RngStream

namespace RngRegistry

def new (masterSeed : UInt64) : RngRegistry := ⟨masterSeed, fun _ _ => none⟩

/-- The slot of a key. -/
def slot (r : RngRegistry) (key : Key) : Option (Option RngStream) := r.shards (shardOf key) key

/-- Sets the slot of a key. -/
def insert (r : RngRegistry) (key : Key) (s : Option RngStream) : RngRegistry :=
  { r with
    shards := Function.update r.shards (shardOf key)
      (Function.update (r.shards (shardOf key)) key (some s)) }

/-- Checks the stream of a key out. One that is checked out is refused. -/
def checkout (r : RngRegistry) (key : Key) : Option (RngGuard × RngRegistry) :=
  if key.2.isSingleUse then some (⟨false, key, some (.derive c r.masterSeed key)⟩, r)
  else
    match r.slot key with
    | some (some s) => some (⟨true, key, some s⟩, r.insert key none)
    | some none => none
    | none => some (⟨true, key, some (.derive c r.masterSeed key)⟩, r.insert key none)

/-- Draws from the stream of a key in its slot. A single-use scope is refused, and a stream that is
checked out. -/
def stream (r : RngRegistry) (key : Key) (ds : List Draw) :
    Option (List (Draw × Value) × RngRegistry) :=
  if key.2.isSingleUse then none
  else
    match (r.slot key).getD (some (.derive c r.masterSeed key)) with
    | none => none
    | some s => some ((s.drawAll c ds).1, r.insert key (some (s.drawAll c ds).2))

/-- Puts a stream back into its slot. -/
def restore (r : RngRegistry) (key : Key) (s : RngStream) : RngRegistry := r.insert key (some s)

/-- Drops a guard. -/
def drop (r : RngRegistry) (g : RngGuard) : RngRegistry :=
  match g.home, g.stream with
  | true, some s => r.restore g.key s
  | _, _ => r

end RngRegistry

/-! ## Tasks -/

/-- What a task does with the stream of a key. The guards it holds have handles. -/
inductive Action
  | checkout (handle : ℕ)
  | draw (handle : ℕ) (ds : List Draw)
  | drop (handle : ℕ)
  | stream (ds : List Draw)
deriving DecidableEq

/-- One operation of some task. -/
structure RngOp where
  key : Key
  action : Action
deriving DecidableEq

/-- What an operation comes to. `noGuard` stands for a program without meaning. -/
inductive Reply
  | granted
  | drawn (vs : List (Draw × Value))
  | dropped
  | refused
  | noGuard
deriving DecidableEq

/-- A registry and the guards that are live. -/
structure Draws where
  registry : RngRegistry
  guards : Key → ℕ → Option RngGuard

namespace Draws

def new (masterSeed : UInt64) : Draws := ⟨.new masterSeed, fun _ _ => none⟩

/-- Sets the guard with a handle. -/
def hold (s : Draws) (key : Key) (handle : ℕ) (g : Option RngGuard) : Draws :=
  { s with guards := Function.update s.guards key (Function.update (s.guards key) handle g) }

/-- One operation. -/
def step (s : Draws) (op : RngOp) : Reply × Draws :=
  match op.action with
  | .checkout handle =>
    match s.registry.checkout c op.key with
    | none => (.refused, s)
    | some (g, registry) => (.granted, { s with registry }.hold op.key handle (some g))
  | .draw handle ds =>
    match s.guards op.key handle with
    | some ⟨home, key, some stream⟩ =>
      (.drawn (stream.drawAll c ds).1,
        s.hold op.key handle (some ⟨home, key, some (stream.drawAll c ds).2⟩))
    | _ => (.noGuard, s)
  | .drop handle =>
    match s.guards op.key handle with
    | some g => (.dropped, { s with registry := s.registry.drop g }.hold op.key handle none)
    | none => (.noGuard, s)
  | .stream ds =>
    match s.registry.stream c op.key ds with
    | none => (.refused, s)
    | some (vs, registry) => (.drawn vs, { s with registry })

/-- The state after some operations on a new registry. -/
def after (masterSeed : UInt64) (ops : List RngOp) : Draws := Mealy.run (step c) (new masterSeed) ops

/-- The operations on a key, with what they come to. -/
def replies (masterSeed : UInt64) (ops : List RngOp) (key : Key) : List (RngOp × Reply) :=
  (ops.zip (Mealy.outputs (step c) (new masterSeed) ops)).filter fun r => r.1.key = key

end Draws

/-- What a reply delivers. -/
def Reply.values : Reply → List (Draw × Value)
  | .drawn vs => vs
  | _ => []

end V2xw.Core
