import ViCell.Lib.Runs
import ViCell.Lib.TreeMaps

/-!
# Arguments of spawned cells

A spawner stashes its arguments under one key that all spawners share; after the
child is created, `SpawnFromPath` and `SpawnPinned` copy what they find there to
a slot of the child, which the child's first read consumes. Every access to the
stash is a lock hold of its own, and calls of different tasks interleave between
them. `wanted` is what the spawner stashed for the spawn; no call reads it.
-/

namespace ViCell.Cells

open Lib Function

abbrev ArgByte := UInt8

abbrev Stash := Std.TreeMap Nat (List ArgByte)

namespace Stash

def maxStashLen : Nat := 1024 * 1024

def maxEntries : Nat := 64

def stash (map : Stash) (key : Nat) (bytes : List ArgByte) : Stash × Nat :=
  if maxEntries ≤ map.size ∧ map[key]? = none then (map, 0)
  else (map.insert key (bytes.take maxStashLen), min bytes.length maxStashLen)

def restore (map : Stash) (key length : Nat) : List ArgByte :=
  ((map[key]?).getD []).take length

def remove (map : Stash) (key : Nat) : Stash := map.erase key

end Stash

def argvKey : Nat := 0x0061726776000000

def personalKey (task : Nat) : Nat := argvKey ^^^ ((task <<< 32) % 2 ^ 64)

def isContinuation (byte : ArgByte) : Bool := 0x80 ≤ byte && byte ≤ 0xBF

/-- Second byte of a sequence of three or four bytes, by its first byte. -/
def secondByteOk (first second : ArgByte) : Bool :=
  if first = 0xE0 then 0xA0 ≤ second && second ≤ 0xBF
  else if first = 0xED then 0x80 ≤ second && second ≤ 0x9F
  else if first = 0xF0 then 0x90 ≤ second && second ≤ 0xBF
  else if first = 0xF4 then 0x80 ≤ second && second ≤ 0x8F
  else isContinuation second

/-- `core::str::from_utf8` accepts the bytes. -/
def validUtf8 : List ArgByte → Bool
  | [] => true
  | first :: rest =>
    if first < 0x80 then validUtf8 rest
    else
      match rest with
      | [] => false
      | second :: rest =>
        if 0xC2 ≤ first && first ≤ 0xDF then isContinuation second && validUtf8 rest
        else
          match rest with
          | [] => false
          | third :: rest =>
            if 0xE0 ≤ first && first ≤ 0xEF then
              secondByteOk first second && isContinuation third && validUtf8 rest
            else
              match rest with
              | [] => false
              | fourth :: rest =>
                0xF0 ≤ first && first ≤ 0xF4 && secondByteOk first second &&
                  isContinuation third && isContinuation fourth && validUtf8 rest

def isAsciiWhitespace (byte : ArgByte) : Bool :=
  byte = 0x20 || byte = 0x09 || byte = 0x0A || byte = 0x0C || byte = 0x0D

/-- The tail of `ostd::args`: the words of the bytes read. -/
def parseArgs (bytes : List ArgByte) : List (List ArgByte) :=
  if bytes = [] then []
  else if validUtf8 bytes then
    (bytes.splitOnP isAsciiWhitespace).filter (fun word => word ≠ [])
  else []

inductive Transfer where
  | created
  | fetched (bytes : List ArgByte)
  | finished
  deriving DecidableEq, Repr

/-- `args` is what the child's first argument read returned. -/
structure Child where
  wanted : List ArgByte
  transfer : Transfer
  args : Option (List (List ArgByte))
  deriving DecidableEq, Repr

/-- A `StateRestore` call behind its first lock hold. -/
inductive Reading where
  | personal (bytes : List ArgByte)
  | shared (key length : Nat)
  deriving DecidableEq, Repr

structure ArgState where
  stash : Stash
  nextTask : Nat
  /-- What a task stashed under the shared key since its last spawn. -/
  pending : Nat → Option (List ArgByte)
  children : Nat → Option Child
  readings : Nat → Option Reading

inductive ArgEvent where
  /-- The `StateStash` call of a task. -/
  | stash (task key : Nat) (bytes : List ArgByte)
  | stashClear (task key : Nat)
  /-- `spawn_from_path` returns a new task to `SpawnFromPath` or `SpawnPinned`. -/
  | create (spawner : Nat)
  /-- `Spawn`, `SpawnFromMem` or a hot swap: nothing is transferred. -/
  | createPlain
  | fetch (child : Nat)
  | place (child : Nat)
  | readBegin (task key length : Nat)
  | readEnd (task : Nat)
  deriving DecidableEq, Repr

namespace ArgState

def initial : ArgState where
  stash := ∅
  nextTask := 2
  pending := fun _ => none
  children := fun _ => none
  readings := fun _ => none

def addChild (state : ArgState) (child : Child) : ArgState :=
  { state with
    nextTask := state.nextTask + 1
    children := update state.children state.nextTask (some child) }

def setTransfer (state : ArgState) (child : Nat) (transfer : Transfer) : ArgState :=
  { state with
    children := update state.children child
      ((state.children child).map (fun record => { record with transfer := transfer })) }

/-- The call returns these bytes to the task; the first ones count as its
arguments. -/
def returnArgs (state : ArgState) (task : Nat) (bytes : List ArgByte) : ArgState :=
  { state with
    readings := update state.readings task none
    children := update state.children task
      ((state.children task).map (fun record =>
        { record with args := record.args.or (some (parseArgs bytes)) })) }

def fetch (state : ArgState) (child : Nat) : ArgState :=
  let bytes := state.stash.restore argvKey 512
  if bytes = [] then state.setTransfer child .finished
  else state.setTransfer child (.fetched bytes)

def place (state : ArgState) (child : Nat) (bytes : List ArgByte) : ArgState :=
  { state.setTransfer child .finished with
    stash := (state.stash.stash (personalKey child) bytes).1 }

def readBegin (state : ArgState) (task key length : Nat) : ArgState :=
  let bytes := state.stash.restore (personalKey task) length
  if key = argvKey ∧ bytes ≠ [] then
    { state with readings := update state.readings task (some (.personal bytes)) }
  else
    { state with readings := update state.readings task (some (.shared key length)) }

def readEnd (state : ArgState) (task : Nat) : Reading → ArgState
  | .personal bytes =>
    { state with stash := state.stash.remove (personalKey task) }.returnArgs task bytes
  | .shared key length =>
    if key = argvKey then state.returnArgs task (state.stash.restore key length)
    else { state with readings := update state.readings task none }

def step (state : ArgState) : ArgEvent → Option ArgState
  | .stash task key bytes =>
    if bytes.length ≤ Stash.maxStashLen then
      some { state with
        stash := (state.stash.stash key bytes).1
        pending := if key = argvKey then update state.pending task (some bytes)
          else state.pending }
    else none
  | .stashClear _ key => some { state with stash := state.stash.remove key }
  | .create spawner =>
    some { state.addChild ⟨(state.pending spawner).getD [], .created, none⟩ with
      pending := update state.pending spawner none }
  | .createPlain => some (state.addChild ⟨[], .finished, none⟩)
  | .fetch child =>
    match (state.children child).map Child.transfer with
    | some .created => some (state.fetch child)
    | _ => none
  | .place child =>
    match (state.children child).map Child.transfer with
    | some (.fetched bytes) => some (state.place child bytes)
    | _ => none
  | .readBegin task key length =>
    if task < state.nextTask ∧ state.readings task = none then
      some (state.readBegin task key length)
    else none
  | .readEnd task => (state.readings task).map (state.readEnd task)

end ArgState

end ViCell.Cells
