/-
The executable cache (`dyninfer-cache`): publications, lookups and removals
that interleave between any two file-system calls, with crashes and I/O
errors in between.

An entry is judged complete from `manifest.json` and `model.vmfb`; whether it
has a decode module is asked last. `remove_dir_all` deletes the files of a
directory one by one in any order, and may stop at any of them. The publish
lock of a digest is taken as exclusive here; it outlives its holder only until
it is reclaimed, so a crash gives it up.
-/
import Dyninfer.Lib.Runs
import Mathlib.Logic.Function.Basic

namespace Dyninfer

abbrev Bytes := List UInt8

/-- The files of an entry. -/
inductive EntryFile where
  | model | decode | manifest | key
  deriving DecidableEq

/-- The files a directory holds, with their contents. -/
abbrev EntryDir := EntryFile → Option Bytes

namespace EntryDir

def empty : EntryDir := fun _ => none

def write (dir : EntryDir) (file : EntryFile) (bytes : Bytes) : EntryDir :=
  Function.update dir file (some bytes)

def unlink (dir : EntryDir) (file : EntryFile) : EntryDir :=
  Function.update dir file none

def isEmpty (dir : EntryDir) : Bool :=
  [EntryFile.model, .decode, .manifest, .key].all fun file => (dir file).isNone

end EntryDir

/-- What a publication writes, in the bytes it writes. -/
structure Publication where
  vmfb : Bytes
  decodeVmfb : Option Bytes
  manifest : Bytes
  key : Bytes

/-- The files of a publication, in the order it stages them. -/
def Publication.files (publication : Publication) : List (EntryFile × Bytes) :=
  (.model, publication.vmfb) :: publication.decodeVmfb.toList.map ((.decode, ·)) ++
    [(.manifest, publication.manifest), (.key, publication.key)]

/-- Files written into a directory in turn. -/
def EntryDir.writeAll (dir : EntryDir) (files : List (EntryFile × Bytes)) : EntryDir :=
  files.foldl (fun dir file => dir.write file.1 file.2) dir

/-- The directory of a publication. -/
def Publication.dir (publication : Publication) : EntryDir :=
  EntryDir.empty.writeAll publication.files

/-- Where `entry_if_complete` stands: the file it tests next. -/
inductive CheckPhase where
  | manifest | model | decode
  deriving DecidableEq

inductive CheckOutcome where
  | next (phase : CheckPhase)
  | missing
  | complete (hasDecode : Bool)

/-- One file test of `entry_if_complete`. -/
def entryIfComplete (dir : Option EntryDir) : CheckPhase → CheckOutcome
  | .manifest => if (dir.bind (· .manifest)).isSome then .next .model else .missing
  | .model => if (dir.bind (· .model)).isSome then .next .decode else .missing
  | .decode => .complete (dir.bind (· .decode)).isSome

/-- Where a publication stands; it holds the lock from `checking` to `releasing`. -/
inductive PublishPhase where
  | idle
  | checking (phase : CheckPhase)
  | staging (dir : EntryDir) (todo : List (EntryFile × Bytes))
  | rechecking (phase : CheckPhase) (dir : EntryDir)
  /-- The entry was found incomplete; does its directory exist? -/
  | clearing (dir : EntryDir)
  | removing (dir : EntryDir)
  | moving (dir : EntryDir)
  | cleaning
  | releasing
  | done
  | crashed

inductive LookupPhase where
  | idle
  | checking (phase : CheckPhase)
  | missed
  | found (hasDecode : Bool)
  deriving DecidableEq

/-- A cache, its publications, lookups and removals under way. -/
structure CacheState (D P L R : Type) where
  entry : D → Option EntryDir
  lock : D → Option P
  publish : P → PublishPhase
  lookup : L → LookupPhase
  /-- The entry a removal is deleting. -/
  remove : R → Option D

/-- What each publication publishes and each lookup asks for. -/
structure CacheRequests (D P L : Type) where
  digest : P → D
  publication : P → Publication
  lookedUp : L → D

inductive CacheAction (D P L R : Type) where
  | publish (p : P)
  /-- The call a publication is at fails. -/
  | publishError (p : P)
  /-- The next file of the `remove_dir_all` a publication is in. -/
  | publishUnlink (p : P) (file : EntryFile)
  | publishCrash (p : P)
  | lookup (l : L)
  /-- `remove` finds an entry in the listing. -/
  | removeBegin (r : R) (digest : D)
  | removeUnlink (r : R) (file : EntryFile)
  | removeEnd (r : R)
  /-- A removal fails or crashes. -/
  | removeStop (r : R)

namespace CacheState

variable {D P L R : Type} [DecidableEq D] [DecidableEq P] [DecidableEq L] [DecidableEq R]

def setEntry (s : CacheState D P L R) (digest : D) (dir : Option EntryDir) : CacheState D P L R :=
  { s with entry := Function.update s.entry digest dir }

def setPublish (s : CacheState D P L R) (p : P) (phase : PublishPhase) : CacheState D P L R :=
  { s with publish := Function.update s.publish p phase }

def setLookup (s : CacheState D P L R) (l : L) (phase : LookupPhase) : CacheState D P L R :=
  { s with lookup := Function.update s.lookup l phase }

def setRemove (s : CacheState D P L R) (r : R) (digest : Option D) : CacheState D P L R :=
  { s with remove := Function.update s.remove r digest }

def setLock (s : CacheState D P L R) (digest : D) (holder : Option P) : CacheState D P L R :=
  { s with lock := Function.update s.lock digest holder }

variable (requests : CacheRequests D P L)

/-- The next call of a publication. -/
def publishStep (s : CacheState D P L R) (p : P) : Option (CacheState D P L R) :=
  let digest := requests.digest p
  match s.publish p with
  | .idle =>
    if (s.lock digest).isNone then some ((s.setLock digest (some p)).setPublish p (.checking .manifest)) else none
  | .checking phase =>
    match entryIfComplete (s.entry digest) phase with
    | .next phase => some (s.setPublish p (.checking phase))
    | .missing => some (s.setPublish p (.staging .empty (requests.publication p).files))
    | .complete _ => some (s.setPublish p .releasing)
  | .staging dir [] => some (s.setPublish p (.rechecking .manifest dir))
  | .staging dir (file :: todo) => some (s.setPublish p (.staging (dir.write file.1 file.2) todo))
  | .rechecking phase dir =>
    match entryIfComplete (s.entry digest) phase with
    | .next phase => some (s.setPublish p (.rechecking phase dir))
    | .missing => some (s.setPublish p (.clearing dir))
    | .complete _ => some (s.setPublish p .cleaning)
  | .clearing dir => some (s.setPublish p (if (s.entry digest).isSome then .removing dir else .moving dir))
  | .removing dir =>
    -- the directory itself goes last
    if (s.entry digest).any (·.isEmpty) then some ((s.setEntry digest none).setPublish p (.moving dir)) else none
  | .moving dir =>
    -- a rename replaces an empty directory, and fails on any other
    if (s.entry digest).all (·.isEmpty) then some ((s.setEntry digest (some dir)).setPublish p .cleaning)
    else some (s.setPublish p .cleaning)
  | .cleaning => some (s.setPublish p .releasing)
  | .releasing => some ((s.setLock digest none).setPublish p .done)
  | .done | .crashed => none

/-- The next file test of a lookup. -/
def lookupStep (s : CacheState D P L R) (l : L) : Option (CacheState D P L R) :=
  match s.lookup l with
  | .idle => some (s.setLookup l (.checking .manifest))
  | .checking phase =>
    match entryIfComplete (s.entry (requests.lookedUp l)) phase with
    | .next phase => some (s.setLookup l (.checking phase))
    | .missing => some (s.setLookup l .missed)
    | .complete hasDecode => some (s.setLookup l (.found hasDecode))
  | .missed | .found _ => none

def step (s : CacheState D P L R) : CacheAction D P L R → Option (CacheState D P L R)
  | .publish p => s.publishStep requests p
  | .publishError p =>
    match s.publish p with
    | .staging .. | .removing _ | .moving _ => some (s.setPublish p .cleaning)
    | _ => none
  | .publishUnlink p file =>
    match s.publish p with
    | .removing _ =>
      (s.entry (requests.digest p)).map fun dir => s.setEntry (requests.digest p) (some (dir.unlink file))
    | _ => none
  | .publishCrash p =>
    match s.publish p with
    | .idle | .done | .crashed => none
    | _ => some ((s.setLock (requests.digest p) none).setPublish p .crashed)
  | .lookup l => s.lookupStep requests l
  | .removeBegin r digest =>
    match s.remove r, s.entry digest with
    | none, some dir => if (dir .key).isSome && (dir .model).isSome then some (s.setRemove r (some digest)) else none
    | _, _ => none
  | .removeUnlink r file =>
    (s.remove r).bind fun digest => (s.entry digest).map fun dir => s.setEntry digest (some (dir.unlink file))
  | .removeEnd r =>
    (s.remove r).bind fun digest =>
      if (s.entry digest).any (·.isEmpty) then some ((s.setEntry digest none).setRemove r none) else none
  | .removeStop r => (s.remove r).map fun _ => s.setRemove r none

end CacheState

end Dyninfer
