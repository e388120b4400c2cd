import ChatDoc.Foundation.Refinement
import ChatDoc.Service.World

/-!
# Blob storage

`LocalStorage` and `R2Storage` of `api/storage.py`, with everything a caller can do:
save, delete and look for a key, read the file of a `with open_local` block, and pull
the pieces of a `stream`, any number of these at a time.  `Shelf` says what both are
for: one map from keys to bytes.
-/

namespace ChatDoc

open Foundation

abbrev Bytes := List UInt8

/-- `CHUNK_SIZE`. -/
def chunkSize : Nat := 1024 * 1024

/-!
# Keys
-/

structure PlainName (name : List Char) : Prop where
  ne_nil : name ≠ []
  ne_dot : name ≠ ['.']
  ne_dots : name ≠ ['.', '.']
  no_slash : '/' ∉ name

structure StorageKey where
  name : String
  plain : PlainName name.toList
deriving DecidableEq

abbrev Path := List (List Char)

/-- How pathlib reads a path. -/
def pathParts (text : List Char) : Path :=
  (text.splitOn '/').filter fun part => part ≠ [] ∧ part ≠ ['.']

/-- `root / key` of pathlib: an absolute key replaces the root. -/
def joinPath (root : Path) (key : List Char) : Path :=
  if key.head? = some '/' then pathParts key else root ++ pathParts key

theorem joinPath_plain (root : Path) {key : List Char} (h : PlainName key) :
    joinPath root key = root ++ [key] := by
  have hhead : key.head? ≠ some '/' := by
    intro hslash
    exact h.no_slash (List.mem_of_mem_head? hslash)
  have hsplit : key.splitOn '/' = [key] := by
    apply List.splitOnP_eq_singleton
    intro c hc
    rw [beq_eq_false_iff_ne]
    rintro rfl
    exact h.no_slash hc
  have hparts : pathParts key = [key] := by
    unfold pathParts
    rw [hsplit, List.filter_singleton, decide_eq_true ⟨h.ne_nil, h.ne_dot⟩]
    rfl
  unfold joinPath
  rw [if_neg hhead, hparts]

/-!
# What callers do
-/

/-- A call and how it ended.  Blocks and streams are numbered as they come. -/
inductive StorageEvent where
  | saved (key : StorageKey) (data : Bytes)
  | saveRaised (key : StorageKey) (data : Bytes) (left : Option Nat)
  | deleted (key : StorageKey)
  | deleteRaised (key : StorageKey) (landed : Bool)
  | existed (key : StorageKey) (answer : Bool)
  | existsRaised (key : StorageKey)
  | opened (key : StorageKey)
  | openMissing (key : StorageKey)
  | openRaised (key : StorageKey) (downloading : Bool)
  | bodyRead (block : Nat) (data : Bytes)
  | bodyMissing (block : Nat)
  | closed (block : Nat)
  | streamed (key : StorageKey)
  | pulled (stream : Nat) (piece : Bytes)
  | ended (stream : Nat)
  | pullMissing (stream : Nat)
  | pullRaised (stream : Nat)
deriving DecidableEq

/-- Keys are made of random digits: no two saves have the same. -/
def savedKeys (events : List StorageEvent) : List StorageKey :=
  events.filterMap fun
    | .saved key _ => some key
    | .saveRaised key _ _ => some key
    | _ => none

/-- A generator has not looked for its key yet, is at a place, or is used up. -/
inductive Generator (place : Type) where
  | created (key : StorageKey)
  | reading (rest : place)
  | finished
deriving DecidableEq

def sourceOf {place : Type} (find : StorageKey -> Option place)
    (streams : List (Generator place)) (stream : Nat) : Option place :=
  match streams[stream]? with
  | some (.created key) => find key
  | some (.reading rest) => some rest
  | _ => none

/-!
# What a storage is for
-/

structure Shelf where
  blobs : StorageKey -> Option Bytes
  blocks : List (Option (StorageKey × Bytes))
  streams : List (Generator Bytes)

namespace Shelf

def start : Shelf := ⟨fun _ => none, [], []⟩

def put (s : Shelf) (key : StorageKey) (data : Option Bytes) : Shelf :=
  { s with blobs := fun k => if k = key then data else s.blobs k }

/-- The answer that a key is missing is `sure`, or may be given for any key.  A save that
raises leaves a front part of the data or nothing. -/
def act (sure : Bool) (s : Shelf) : StorageEvent -> Option Shelf
  | .saved key data => some (s.put key (some data))
  | .saveRaised key data left =>
      match left with
      | none => some s
      | some n => some (s.put key (some (data.take n)))
  | .deleted key => some (s.put key none)
  | .deleteRaised key landed => some (if landed then s.put key none else s)
  | .existed key answer =>
      if answer then (s.blobs key).map fun _ => s
      else if sure && (s.blobs key).isSome then none else some s
  | .existsRaised _ => some s
  | .opened key =>
      (s.blobs key).map fun data => { s with blocks := s.blocks ++ [some (key, data)] }
  | .openMissing key => if sure && (s.blobs key).isSome then none else some s
  | .openRaised _ _ => some s
  | .bodyRead block data =>
      s.blocks[block]?.join.bind fun b => if b.2 = data then some s else none
  | .bodyMissing block =>
      s.blocks[block]?.join.bind fun b => if s.blobs b.1 = none then some s else none
  | .closed block =>
      s.blocks[block]?.join.map fun _ => { s with blocks := s.blocks.set block none }
  | .streamed key => some { s with streams := s.streams ++ [.created key] }
  | .pulled stream piece =>
      (sourceOf s.blobs s.streams stream).bind fun rest =>
        if piece ≠ [] ∧ piece.length ≤ chunkSize ∧ piece <+: rest then
          some { s with streams := s.streams.set stream (.reading (rest.drop piece.length)) }
        else none
  | .ended stream =>
      if s.streams[stream]? = some .finished then some s
      else
        (sourceOf s.blobs s.streams stream).bind fun rest =>
          if rest = [] then some { s with streams := s.streams.set stream .finished }
          else none
  | .pullMissing stream =>
      match s.streams[stream]? with
      | some (.created key) =>
          if sure && (s.blobs key).isSome then none
          else some { s with streams := s.streams.set stream .finished }
      | _ => none
  | .pullRaised stream =>
      s.streams[stream]?.map fun _ =>
        { s with streams := s.streams.set stream .finished }

end Shelf

/-!
# Files of a directory
-/

/-- A disk, with the paths of the blocks and the open files of the streams.  A file that
is deleted goes on under the streams that have it open. -/
structure LocalStorage where
  files : Path -> Option Nat
  inodes : List Bytes
  blocks : List (Option Path)
  streams : List (Generator (Nat × Nat))

namespace LocalStorage

def start : LocalStorage := ⟨fun _ => none, [], [], []⟩

section Calls

variable (root : Path) (s : LocalStorage)

/-- `self._path(key)`. -/
def path (key : StorageKey) : Path := joinPath root key.name.toList

/-- `write_bytes` empties a file that is there, or makes one. -/
def writeBytes (p : Path) (data : Bytes) : LocalStorage :=
  match s.files p with
  | some i => { s with inodes := s.inodes.set i data }
  | none =>
      { s with
        files := fun q => if q = p then some s.inodes.length else s.files q
        inodes := s.inodes ++ [data] }

def unlink (p : Path) : LocalStorage :=
  { s with files := fun q => if q = p then none else s.files q }

def openFile (key : StorageKey) : Option (Nat × Nat) :=
  (s.files (path root key)).map fun i => (i, 0)

def restOf (place : Nat × Nat) : Bytes :=
  (s.inodes[place.1]?.getD []).drop place.2

def act : StorageEvent -> Option LocalStorage
  | .saved key data => some (s.writeBytes (path root key) data)
  | .saveRaised key data left =>
      match left with
      | none => some s
      | some n => some (s.writeBytes (path root key) (data.take n))
  | .deleted key => some (s.unlink (path root key))
  | .deleteRaised _ landed => if landed then none else some s
  | .existed key answer =>
      if answer = (s.files (path root key)).isSome then some s else none
  | .existsRaised _ => some s
  | .opened key =>
      (s.files (path root key)).map fun _ =>
        { s with blocks := s.blocks ++ [some (path root key)] }
  | .openMissing key => if s.files (path root key) = none then some s else none
  | .openRaised _ downloading => if downloading then none else some s
  | .bodyRead block data =>
      s.blocks[block]?.join.bind fun p =>
        if (s.files p).bind (fun i => s.inodes[i]?) = some data then some s else none
  | .bodyMissing block =>
      s.blocks[block]?.join.bind fun p => if s.files p = none then some s else none
  | .closed block =>
      s.blocks[block]?.join.map fun _ => { s with blocks := s.blocks.set block none }
  | .streamed key => some { s with streams := s.streams ++ [.created key] }
  | .pulled stream piece =>
      (sourceOf (s.openFile root) s.streams stream).bind fun place =>
        if piece ≠ [] ∧ piece = (s.restOf place).take chunkSize then
          some { s with
            streams := s.streams.set stream (.reading (place.1, place.2 + piece.length)) }
        else none
  | .ended stream =>
      if s.streams[stream]? = some .finished then some s
      else
        (sourceOf (s.openFile root) s.streams stream).bind fun place =>
          if s.restOf place = [] then
            some { s with streams := s.streams.set stream .finished }
          else none
  | .pullMissing stream =>
      match s.streams[stream]? with
      | some (.created key) =>
          if s.files (path root key) = none then
            some { s with streams := s.streams.set stream .finished }
          else none
      | _ => none
  | .pullRaised stream =>
      s.streams[stream]?.map fun _ =>
        { s with streams := s.streams.set stream .finished }

end Calls

theorem path_eq (root : Path) (key : StorageKey) : path root key = root ++ [key.name.toList] :=
  joinPath_plain root key.plain

theorem path_injective (root : Path) {key key' : StorageKey}
    (h : path root key = path root key') : key = key' := by
  rw [path_eq, path_eq, List.append_cancel_left_eq, List.singleton_inj] at h
  rcases key with ⟨name, plain⟩
  rcases key' with ⟨name', plain'⟩
  have hname : name = name' := String.toList_injective h
  subst hname
  rfl

end LocalStorage

/-!
# Objects of a bucket
-/

/-- The objects, and the temporary files with what is in them. -/
structure R2Storage where
  objects : StorageKey -> Option Bytes
  temps : List (Option Bytes)
  blocks : List (Option Nat)
  streams : List (Generator Bytes)

namespace R2Storage

def start : R2Storage := ⟨fun _ => none, [], [], []⟩

section Calls

variable (s : R2Storage)

def putObject (key : StorageKey) (data : Option Bytes) : R2Storage :=
  { s with objects := fun k => if k = key then data else s.objects k }

/-- A `ClientError` stands for a missing object, whatever its cause.  `open_local` takes
back the temporary file on a `ClientError` only. -/
def act : StorageEvent -> Option R2Storage
  | .saved key data => some (s.putObject key (some data))
  | .saveRaised key data left =>
      match left with
      | none => some s
      | some n => if data.length ≤ n then some (s.putObject key (some data)) else none
  | .deleted key => some (s.putObject key none)
  | .deleteRaised key landed => some (if landed then s.putObject key none else s)
  | .existed key answer =>
      if answer then (s.objects key).map fun _ => s else some s
  | .existsRaised _ => some s
  | .opened key =>
      (s.objects key).map fun data =>
        { s with
          temps := s.temps ++ [some data]
          blocks := s.blocks ++ [some s.temps.length] }
  | .openMissing _ => some { s with temps := s.temps ++ [none] }
  | .openRaised _ downloading =>
      some (if downloading then { s with temps := s.temps ++ [some []] } else s)
  | .bodyRead block data =>
      s.blocks[block]?.join.bind fun i =>
        if s.temps[i]? = some (some data) then some s else none
  | .bodyMissing block =>
      s.blocks[block]?.join.bind fun i =>
        if s.temps[i]? = some none then some s else none
  | .closed block =>
      s.blocks[block]?.join.map fun i =>
        { s with temps := s.temps.set i none, blocks := s.blocks.set block none }
  | .streamed key => some { s with streams := s.streams ++ [.created key] }
  | .pulled stream piece =>
      (sourceOf s.objects s.streams stream).bind fun rest =>
        if piece ≠ [] ∧ piece.length ≤ chunkSize ∧ piece <+: rest then
          some { s with streams := s.streams.set stream (.reading (rest.drop piece.length)) }
        else none
  | .ended stream =>
      if s.streams[stream]? = some .finished then some s
      else
        (sourceOf s.objects s.streams stream).bind fun rest =>
          if rest = [] then some { s with streams := s.streams.set stream .finished }
          else none
  | .pullMissing stream =>
      match s.streams[stream]? with
      | some (.created _) => some { s with streams := s.streams.set stream .finished }
      | _ => none
  | .pullRaised stream =>
      s.streams[stream]?.map fun _ =>
        { s with streams := s.streams.set stream .finished }

end Calls

end R2Storage

end ChatDoc
