import V2xw.Lib.Fcfs
import V2xw.Node.Queue

/-!
# Servers and service times

The service model and the server banks of `crates/v2xw-node/src/server.rs`. A service time comes
from the hardware profile or it does not exist.

## Main definitions

* `HardwareProfile`, `ProfileServiceModel` — what an operation costs and where
  it runs.
* `ServerBank` — a bank of identical FIFO servers, with `submit`.

## Main results

* `ServerBank.earliestFree_le_submit` — work only delays a bank.
* `ServerBank.start_le_finish` — work ends after it starts.
-/

namespace V2xw.Node

open Core

/-- `saturating_add` of two instants in nanoseconds, both `u64`. -/
def satAdd64 (a b : ℕ) : ℕ := a + min b (u64Max - a)

lemma le_satAdd64 (a b : ℕ) : a ≤ satAdd64 a b := Nat.le_add_right a _

lemma satAdd64_mono {a a' : ℕ} (h : a ≤ a') (b : ℕ) : satAdd64 a b ≤ satAdd64 a' b := by
  unfold satAdd64
  omega

/-! ## Service times -/

/-- What kind of work a task is. -/
inductive OpClass
  | sign | verify | hash | parse | application | crlProcessing
  deriving DecidableEq, Repr

/-- Where an operation runs. -/
inductive RunsOn
  | hsm | accelerator | cpu
  deriving DecidableEq, Repr

/-- One unit of work, named so that its cost is a table lookup. -/
structure OpDescriptor where
  /-- The operation id the profiles key their cost tables by. -/
  op : String
  opClass : OpClass
  bytes : ℕ
  deriving DecidableEq, Repr

/-- A signature verification over `bytes` bytes. -/
def OpDescriptor.verify (op : String) (bytes : ℕ) : OpDescriptor := ⟨op, .verify, bytes⟩

/-- A signature generation over `bytes` bytes. -/
def OpDescriptor.sign (op : String) (bytes : ℕ) : OpDescriptor := ⟨op, .sign, bytes⟩

/-- Non-cryptographic node work. -/
def OpDescriptor.task (op : String) (c : OpClass) : OpDescriptor := ⟨op, c, 0⟩

/-- The parts of a hardware profile that decide service times. -/
structure HardwareProfile where
  /-- The core count, when the profile publishes one. -/
  cores : Option ℕ
  /-- The number of security-hardware servers, when the profile publishes one. -/
  hsmServers : Option ℕ
  /-- The service time of one cryptographic operation and where it runs; `none` when the profile
  publishes neither a hardware nor a software figure. -/
  opCost : String → Option (Duration × RunsOn)

/-- A service model that reads its costs out of a hardware profile. -/
structure ProfileServiceModel where
  profile : HardwareProfile
  /-- The cost of the non-cryptographic classes, when a scenario supplies one. -/
  appTask : Option Duration := none
  unlimitedTier : Bool := false

namespace ProfileServiceModel

/-- The service time of an operation at the abstract compute tier: one microsecond. -/
def unlimitedCost : Duration := ⟨1000⟩

/-- The same model at the abstract compute tier. -/
def unlimited (m : ProfileServiceModel) : ProfileServiceModel := { m with unlimitedTier := true }

/-- The same model with a scenario-supplied cost for application tasks. -/
def withAppTaskCost (m : ProfileServiceModel) (cost : Duration) : ProfileServiceModel :=
  { m with appTask := some cost }

/-- How long an operation takes, or `none` when the profile costs no such operation. -/
def serviceTime (m : ProfileServiceModel) (op : OpDescriptor) : Option Duration :=
  let cost :=
    match op.opClass with
    | .sign | .verify | .hash => (m.profile.opCost op.op).map (·.1)
    | .parse | .application | .crlProcessing => m.appTask
  if m.unlimitedTier then cost.map fun _ => unlimitedCost else cost

/-- Where the work runs. -/
def runsOn (m : ProfileServiceModel) (op : OpDescriptor) : RunsOn :=
  ((m.profile.opCost op.op).map (·.2)).getD .cpu

end ProfileServiceModel

/-! ## Banks -/

/-- A bank of identical FIFO servers. -/
structure ServerBank where
  freeAt : List SimTime
  pos : 0 < freeAt.length
  busyNs : ℕ := 0
  completed : ℕ := 0
  windowStart : SimTime
  deriving DecidableEq, Repr

/-- When a submitted task starts and finishes, and how long it waits in between. -/
structure Scheduled where
  start : SimTime
  finish : SimTime
  wait : ℕ
  deriving DecidableEq, Repr

namespace ServerBank

/-- A bank of `servers` servers, all free at `at_`; a bank without servers has one all the same. -/
def new (servers : ℕ) (at_ : SimTime) : ServerBank where
  freeAt := List.replicate (max servers 1) at_
  pos := by simp
  windowStart := at_

/-- The instant the first server frees up. -/
def earliestFree (b : ServerBank) : SimTime := Servers.earliest b.freeAt b.pos

/-- The same bank with `servers` servers, each free when the earliest of the old ones was. -/
def resized (b : ServerBank) (servers : ℕ) : ServerBank :=
  { b with
    freeAt := List.replicate (max servers 1) b.earliestFree
    pos := by simp }

/-- Offers one task of length `duration`, arriving at `arrival`: it goes to the lowest-indexed
server among those that free up first. -/
def submit (b : ServerBank) (arrival : SimTime) (duration : Duration) : Scheduled × ServerBank :=
  let start := max arrival b.earliestFree
  let finish := satAdd64 start duration.ns
  ({ start, finish, wait := start - arrival },
    { b with
      freeAt := Servers.assign b.freeAt b.pos finish
      pos := Servers.length_assign_pos b.pos finish
      busyNs := satAdd64 b.busyNs duration.ns
      completed := satAdd32 b.completed 1 })

/-- Clears the window counters. -/
def resetWindow (b : ServerBank) (now : SimTime) : ServerBank :=
  { b with busyNs := 0, completed := 0, windowStart := now }

variable (b : ServerBank) (arrival : SimTime) (d : Duration)

lemma start_le_finish : (b.submit arrival d).1.start ≤ (b.submit arrival d).1.finish :=
  le_satAdd64 _ _

lemma arrival_le_start : arrival ≤ (b.submit arrival d).1.start := le_max_left _ _

lemma earliestFree_le_submit : b.earliestFree ≤ (b.submit arrival d).2.earliestFree := by
  refine Servers.earliest_le_assign b.pos ?_
  exact le_trans (le_max_right arrival b.earliestFree) (start_le_finish b arrival d)

@[simp]
lemma earliestFree_resized (n : ℕ) : (b.resized n).earliestFree = b.earliestFree := by
  have hmem := Servers.earliest_mem (b.resized n).freeAt (b.resized n).pos
  exact List.eq_of_mem_replicate hmem

end ServerBank

end V2xw.Node
