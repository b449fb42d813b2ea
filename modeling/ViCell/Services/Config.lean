import ViCell.Api
import ViCell.Lib.Readers
import ViCell.Lib.ReceiveLoop

/-!
# The config service

A store of strings behind typed requests.  Strings are byte strings checked to be
UTF-8, in the order of their bytes as in the source's map.
-/

namespace ViCell.Services

open Lib

namespace Utf8

def isContinuation (byte : BitVec 8) : Bool := decide (0x80 ≤ byte.toNat ∧ byte.toNat ≤ 0xBF)

def between (low high : Nat) (byte : BitVec 8) : Bool :=
  decide (low ≤ byte.toNat ∧ byte.toNat ≤ high)

/-- What the second byte must be after a first byte of a sequence of three or four. -/
def secondOf (first second : BitVec 8) : Bool :=
  match first.toNat with
  | 0xE0 => between 0xA0 0xBF second
  | 0xED => between 0x80 0x9F second
  | 0xF0 => between 0x90 0xBF second
  | 0xF4 => between 0x80 0x8F second
  | _ => isContinuation second

def valid : List (BitVec 8) → Bool
  | [] => true
  | a :: rest =>
    if a.toNat < 0x80 then valid rest
    else match rest with
    | [] => false
    | b :: rest =>
      if between 0xC2 0xDF a then isContinuation b && valid rest
      else match rest with
      | [] => false
      | c :: rest =>
        if between 0xE0 0xEF a then secondOf a b && isContinuation c && valid rest
        else match rest with
        | [] => false
        | d :: rest =>
          between 0xF0 0xF4 a && secondOf a b && isContinuation c && isContinuation d &&
            valid rest

end Utf8

inductive ConfigRequest where
  | get (key : List (BitVec 8))
  | set (key value : List (BitVec 8))
  | delete (key : List (BitVec 8))
  | list
  deriving DecidableEq, Repr

inductive ConfigResponse where
  | value (text : List (BitVec 8))
  | keys (text : List (BitVec 8))
  | ok
  | notFound
  | err (code : BitVec 8)
  deriving DecidableEq, Repr

namespace ConfigRequest

def string : Reader (List (BitVec 8)) :=
  ((Reader.varint 1 10).bind fun length => Reader.bytes length).guard Utf8.valid

/-- The variant's number, then its fields. -/
def reader : Reader ConfigRequest :=
  (Reader.varint 15 5).bind fun variant =>
    match variant with
    | 0 => string.map .get
    | 1 => string.bind fun key => string.map fun value => .set key value
    | 2 => string.map .delete
    | 3 => .succeed .list
    | _ => .fail

end ConfigRequest

namespace ConfigResponse

def encodedLen : ConfigResponse → Nat
  | .value text | .keys text => 1 + varintLen text.length + text.length
  | .ok | .notFound => 1
  | .err _ => 2

end ConfigResponse

/-- Bytes in the order of the source's map. -/
def compareText (a b : List (BitVec 8)) : Ordering :=
  compareOfLessAndEq (a.map (fun byte => byte.toNat)) (b.map (fun byte => byte.toNat))

abbrev ConfigStore := Std.TreeMap (List (BitVec 8)) (List (BitVec 8)) compareText

namespace Config

def text (string : String) : List (BitVec 8) :=
  string.toList.map fun char => BitVec.ofNat 8 char.toNat

def newStore : ConfigStore :=
  ((∅ : ConfigStore).insert (text "PATH") (text "/bin")).insert (text "OS") (text "ViCell")

def reply (response : ConfigResponse) : Option ConfigResponse :=
  if response.encodedLen ≤ ipcBufSize then some response else none

/-- A newline goes in front of a key only when the list so far is not empty. -/
def keyList (store : ConfigStore) : List (BitVec 8) :=
  store.keys.foldl (fun list key => (if list.isEmpty then list else list ++ [0x0A]) ++ key) []

def handle (store : ConfigStore) : Option ConfigRequest → ConfigStore × Option ConfigResponse
  | some (.get key) =>
    match store[key]? with
    | some value =>
      match reply (.value value) with
      | some response => (store, some response)
      | none => (store, reply (.err 0xFF))
    | none => (store, reply .notFound)
  | some (.set key value) => (store.insert key value, reply .ok)
  | some (.delete key) => (store.erase key, reply .ok)
  | some .list => (store, reply (.keys (keyList store)))
  | none => (store, reply (.err 0xFF))

def main : ReceiveLoop ConfigStore (Option ConfigRequest) (Option ConfigResponse) where
  size := ipcBufSize
  accepts sender := decide (sender > 0)
  decode _ buf := ConfigRequest.reader.decode buf
  handle store _ request := handle store request
  idle store := store

end Config

end ViCell.Services
