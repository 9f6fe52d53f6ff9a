import BanBoard.Log.Entry
import BanBoard.Log.Slot
import BanBoard.Number.Word
import BanBoard.Text.Blank

/-!
The action log: entries are only ever appended, with increasing numbers and with times that never go
back. A number is spent as soon as it is given, whether or not the entry reaches the file. When there is
no number behind the next one, the operation is abandoned before anything is given out or written.
-/

namespace BanBoard.Log

open BanBoard.Files (Fault)
open BanBoard.Text
open BanBoard.Time (Instant)

/-- A failed operation on the file at a path, or one that was abandoned because a number of an entry is
no word. -/
inductive Error where
  | io (path : List Char) (cause : Fault)
  | overflow
  deriving DecidableEq

def Error.message : Error → List Char
  | .io path cause => "IO error on ".toList ++ path ++ ':' :: ' ' :: cause.message
  | .overflow => "attempt to add with overflow".toList

/-- The number and the time from which the next entry is stamped. -/
structure Cursor where
  nextId : UInt64
  lastTimestamp : Option Instant
  deriving DecidableEq

/-- The entry on a line, unless the line is blank or holds none. -/
def entryOn? (line : List Char) : Option Entry :=
  if isBlankText line then none else Entry.decode? line

/-- The entries of a text in the order of its lines. -/
def entriesOf (text : List Char) : List Entry := (lines text).filterMap entryOn?

def greatestId (ids : List UInt64) : Option UInt64 := ids.max?

def latestTime (times : List Instant) : Option Instant :=
  times.foldl (fun latest t =>
    match latest with
    | none => some t
    | some u => some (u.latest t)) none

/-- The number for the first entry behind some numbers, if there is one. The first of all is one. -/
def nextId? (ids : List UInt64) : Option UInt64 :=
  match greatestId ids with
  | none => some 1
  | some id => Number.add? id 1

def Cursor.behind? (entries : List Entry) : Option Cursor :=
  (nextId? (entries.map Entry.id)).map fun nextId =>
    ⟨nextId, latestTime (entries.map Entry.timestamp)⟩

/-- An open log. -/
structure Store where
  path : List Char
  cursor : Cursor
  deriving DecidableEq

namespace Store

/-- Open the log at a path. A torn line at the end of the file is cut off before anything is read. -/
def open_ (path : List Char) (slot : Slot) : Except Error Store × Slot :=
  match slot.repaired with
  | .error cause => (.error (.io path cause), slot)
  | .ok bytes =>
    match (Slot.file bytes).text with
    | .error cause => (.error (.io path cause), .file bytes)
    | .ok text =>
      match Cursor.behind? (entriesOf text) with
      | none => (.error .overflow, .file bytes)
      | some cursor => (.ok ⟨path, cursor⟩, .file bytes)

/-- The entry that an attempt becomes, given the reading of a clock. A reading before the last time is
raised to it. -/
def stamp (store : Store) (attempt : Attempt) (now : Instant) : Entry where
  id := store.cursor.nextId
  timestamp :=
    match store.cursor.lastTimestamp with
    | none => now
    | some last => last.latest now
  attempt := attempt

/-- The log after an entry was stamped, if there is a number for the entry behind it. -/
def spend? (store : Store) (entry : Entry) : Option Store :=
  (Number.add? store.cursor.nextId 1).map fun nextId =>
    { store with cursor := ⟨nextId, some entry.timestamp⟩ }

/-- The line of an entry as it is written, its newline included. -/
def lineOf (entry : Entry) : List UInt8 := encodeUtf8 entry.encode ++ [newline]

/-- Append an attempt. The entry has a line of its own, because a torn line before it is cut off
first. -/
def append (store : Store) (slot : Slot) (attempt : Attempt) (now : Instant) (fate : WriteFate) :
    Except Error Entry × Store × Slot :=
  let entry := store.stamp attempt now
  match store.spend? entry with
  | none => (.error .overflow, store, slot)
  | some store =>
    match slot.repaired with
    | .error cause => (.error (.io store.path cause), store, slot)
    | .ok whole =>
      match Slot.write whole (lineOf entry) fate with
      | (.error cause, slot) => (.error (.io store.path cause), store, slot)
      | (.ok (), slot) => (.ok entry, store, slot)

end Store

/-- A question to the log. What is unset does not restrict the answer. -/
structure Query where
  since : Option Instant
  limit : Option Nat
  jail : Option (List Char)
  action : Option Action
  deriving DecidableEq

namespace Query

def all : Query := ⟨none, none, none, none⟩

def admits (query : Query) (entry : Entry) : Bool :=
  query.since.all (fun since => since.le entry.timestamp) &&
    query.jail.all (fun jail => entry.attempt.jail = jail) &&
    query.action.all (fun action => entry.attempt.action = action)

/-- The last elements of a list, in order. -/
def newest {α : Type} (limit : Option Nat) (xs : List α) : List α :=
  match limit with
  | none => xs
  | some n => xs.drop (xs.length - n)

/-- Whether one entry comes no later than another, by time and then by number. -/
def entryLe (a b : Entry) : Bool :=
  if a.timestamp = b.timestamp then a.id ≤ b.id else a.timestamp.le b.timestamp

/-- The answer from the entries of a log: those that the filters admit, ordered by time, and of those
the newest. -/
def answer (query : Query) (entries : List Entry) : List Entry :=
  newest query.limit ((entries.filter query.admits).mergeSort entryLe)

end Query

namespace Store

def query (store : Store) (slot : Slot) (query : Query) : Except Error (List Entry) :=
  match slot.text with
  | .error cause => .error (.io store.path cause)
  | .ok text => .ok (query.answer (entriesOf text))

def banTimes (store : Store) (slot : Slot) (since : Instant) : Except Error (List Instant) :=
  (store.query slot { Query.all with since := some since, action := some .ban }).map fun entries =>
    (entries.filter Entry.succeeded).map Entry.timestamp

end Store

end BanBoard.Log
