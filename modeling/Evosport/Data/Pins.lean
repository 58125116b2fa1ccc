/-
Dataset pins (`services/marketdata/pins.py`).

A run pins the paths that it reads in a small file named by the content hash of its dataset, for a
time to live; the pruners skip every path under a pin that has not expired.  A pin is written to a
temporary file that is moved into place, both of them named by the hash alone, so that the runs
over one dataset share them.  Every step of the model is one operation of the file system, and
beside the files it keeps what each run has pinned and not released.
-/
import Evosport.Lib.Dict
import Evosport.Lib.StableSort
import Mathlib.Algebra.Order.Floor.Ring
import Mathlib.Algebra.Order.Ring.Rat
import Mathlib.Data.Rat.Floor
import Mathlib.Data.String.Basic
import Mathlib.Logic.Function.Basic

namespace Evosport.Data

open Lib

/-! ## Pin files -/

/-- The character `/` in the place of a backslash. -/
def slash (c : Char) : Char := if c = '\\' then '/' else c

/-- `_norm` -/
def norm (p : String) : String :=
  String.ofList ((p.toList.map slash).reverse.dropWhile (· = '/')).reverse

/-- The payload of a pin file: the hash it is filed under, the paths that are pinned, and until
when. -/
structure PinRecord where
  contentHash : String
  paths : List String
  expiresAtUs : ℤ
  deriving DecidableEq, Repr

/-- A time in seconds as whole microseconds. -/
def micros (t : ℚ) : ℤ := ⌊t * 1000000⌋

/-- The time to live that counts. -/
def effectiveTtl (ttlSeconds : ℤ) : ℤ := max 1 ttlSeconds

/-- The payload that `pin_paths` writes at time `now`. -/
def pinPayload (contentHash : String) (paths : List String) (ttlSeconds : ℤ) (now : ℚ) :
    PinRecord where
  contentHash := contentHash
  paths := sortByKey String.toList (paths.map norm).dedup
  expiresAtUs := micros (now + effectiveTtl ttlSeconds)

/-- `active_pinned_paths` over the pin files, at time `now` -/
def activePinnedPaths (files : Dict String PinRecord) (now : ℚ) : List String :=
  (files.values.filter fun r => decide (micros now ≤ r.expiresAtUs)).flatMap fun r =>
    r.paths.map norm

/-- `is_path_pinned` -/
def isPathPinned (path : String) (pinned : List String) : Bool :=
  if pinned = [] then false
  else if norm path ∈ pinned then true
  else pinned.any fun p => norm path = p || (p ++ "/").toList.isPrefixOf (norm path).toList

section SafeHash

variable (isAlnum : Char → Bool)

/-- `safe_hash`, the stem of the pin file of a content hash; `isAlnum` is `str.isalnum` of one
character, by the tables of the Unicode standard -/
def safeHash (contentHash : String) : String :=
  let kept := contentHash.toList.filter fun c => isAlnum c || c == '-' || c == '_'
  if kept = [] then "pin" else String.ofList kept

end SafeHash

/-! ## Runs and pruners -/

/-- What a run has pinned and not released: who did, under which hash, which paths, and until when
it relies on them. -/
structure Pin (ι : Type*) where
  owner : ι
  contentHash : String
  paths : List String
  /-- The end of its own time to live. -/
  deadline : ℚ
  deriving DecidableEq

/-- Where a process is: it writes a pin, has read an expired one that it is about to delete, or does
neither. -/
inductive PinPhase (ι : Type*) where
  | idle
  /-- `pin_paths` has written its temporary file. -/
  | pinning (pin : Pin ι)
  /-- `active_pinned_paths` has read an expired pin file and is about to delete it. -/
  | collecting (file : String)
  deriving DecidableEq

/-- The pin files, the temporary files, the processes and the clock; beside them the pins that runs
rely on, which no code reads. -/
structure PinWorld (ι : Type*) where
  files : Dict String PinRecord
  temps : Dict String PinRecord
  phase : ι → PinPhase ι
  now : ℚ
  pins : List (Pin ι)

/-- What happens next: time passes, or a process takes one file operation of a pin, a release or a
collection. -/
inductive PinEvent (ι : Type*) where
  | tick (dt : ℚ)
  | writeTemp (i : ι) (contentHash : String) (paths : List String) (ttlSeconds : ℤ)
  | replace (i : ι)
  /-- `pin_paths` fails before its file is in place. -/
  | pinFails (i : ι)
  | release (i : ι) (contentHash : String)
  | readExpired (i : ι) (file : String)
  | collect (i : ι)
  deriving DecidableEq

namespace PinWorld

variable {ι : Type*} [DecidableEq ι]

/-- The process `i` goes on to its next phase. -/
def goto (w : PinWorld ι) (i : ι) (p : PinPhase ι) : PinWorld ι :=
  { w with phase := Function.update w.phase i p }

section Step

variable (isAlnum : Char → Bool)

/-- The second half of `pin_paths`: whatever the temporary file holds is moved into place. -/
def replaceFile (w : PinWorld ι) (pin : Pin ι) : PinWorld ι :=
  let stem := safeHash isAlnum pin.contentHash
  match w.temps.get? stem with
  | some payload =>
    { w with
      files := w.files.set stem payload, temps := w.temps.erase stem, pins := w.pins ++ [pin] }
  | none => { w with pins := w.pins ++ [pin] }

/-- `release_pin` by the run `i` -/
def release (w : PinWorld ι) (i : ι) (contentHash : String) : PinWorld ι :=
  { w with
    files := w.files.erase (safeHash isAlnum contentHash)
    pins := w.pins.filter fun pin => ¬ (pin.owner = i ∧ pin.contentHash = contentHash) }

/-- One event; an event that no process is ready for changes nothing. -/
def step (w : PinWorld ι) : PinEvent ι → PinWorld ι
  | .tick dt => { w with now := w.now + max 0 dt }
  | .writeTemp i contentHash paths ttlSeconds =>
    match w.phase i with
    | .idle =>
      ({ w with
        temps := w.temps.set (safeHash isAlnum contentHash)
          (pinPayload contentHash paths ttlSeconds w.now) } : PinWorld ι).goto i
        (.pinning ⟨i, contentHash, paths, w.now + effectiveTtl ttlSeconds⟩)
    | _ => w
  | .replace i =>
    match w.phase i with
    | .pinning pin => (w.replaceFile isAlnum pin).goto i .idle
    | _ => w
  | .pinFails i =>
    match w.phase i with
    | .pinning _ => w.goto i .idle
    | _ => w
  | .release i contentHash =>
    match w.phase i with
    | .idle => w.release isAlnum i contentHash
    | _ => w
  | .readExpired i file =>
    match w.phase i, w.files.get? file with
    | .idle, some r => if r.expiresAtUs < micros w.now then w.goto i (.collecting file) else w
    | _, _ => w
  | .collect i =>
    match w.phase i with
    | .collecting file => ({ w with files := w.files.erase file } : PinWorld ι).goto i .idle
    | _ => w

end Step

end PinWorld

end Evosport.Data
