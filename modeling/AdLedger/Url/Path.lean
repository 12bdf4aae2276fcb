import AdLedger.Url.Percent
import AdLedger.Url.Scheme

/-!
# Paths

A path is read segment by segment. A segment `.` is left out, and one `..` takes away the segment
before it, unless that is a drive letter. In a path of a file, a drive letter at the start is
written with a colon and keeps its own segment.
-/

namespace AdLedger.Url

/-- A letter and a colon or a bar. -/
def isDrive (s : List Char) : Bool :=
  match s with
  | [a, b] => a.isAlpha && (b = ':' || b = '|')
  | _ => false

/-- The spellings of a point in a segment. -/
def points : List (List Char) := [".".toList, "%2e".toList, "%2E".toList]

/-- Whether a segment stands for the place it is in. -/
def isDot (segment : List Char) : Bool := points.contains segment

/-- Whether a segment stands for the place above. -/
def isDotDot (segment : List Char) : Bool :=
  points.any fun a => points.any fun b => a ++ b = segment

/-- What has been read of a path: the segments that a slash has ended, and whether the path began
with a drive letter. -/
structure PathState where
  segments : List (List Char)
  drive : Bool

namespace PathState

/-- Takes away the last segment, unless it is a drive letter. -/
def up (s : PathState) : PathState :=
  if s.segments.getLast?.any isDrive then s else { s with segments := s.segments.dropLast }

/-- Splits a drive letter and a colon from what follows them at the start of a file's path. What
follows is then no longer a dot segment, whatever it is. -/
def splitDrive? (kind : SchemeKind) (s : PathState) (segment : List Char) :
    Option (List Char × List Char) :=
  match segment with
  | a :: ':' :: c :: rest =>
    if kind = .file && s.segments.isEmpty && a.isAlpha then some ([a, ':'], c :: rest) else none
  | _ => none

/-- A segment in its place, for one that is not a dot segment: at the start of a file's path a drive
letter has a colon. -/
def placed (kind : SchemeKind) (s : PathState) (segment : List Char) : List Char × Bool :=
  match segment with
  | [a, _] =>
    if kind = .file && s.segments.isEmpty && isDrive segment then ([a, ':'], true)
    else (segment, false)
  | _ => (segment, false)

/-- Takes a segment that a slash ends. -/
def push (kind : SchemeKind) (s : PathState) (segment : List Char) : PathState :=
  match s.splitDrive? kind segment with
  | some (drive, rest) => { s with segments := s.segments ++ [drive, rest] }
  | none =>
    if isDotDot segment then s.up
    else if isDot segment then s
    else
      let (segment, drive) := s.placed kind segment
      ⟨s.segments ++ [segment], s.drive || drive⟩

/-- Segments with a slash after each. -/
def written (s : PathState) : List Char := s.segments.flatMap (· ++ ['/'])

/-- Takes the last segment: the path after its first slash, and whether it began with a drive
letter. -/
def finish (kind : SchemeKind) (s : PathState) (segment : List Char) : List Char × Bool :=
  match s.splitDrive? kind segment with
  | some (drive, rest) => (s.written ++ drive ++ '/' :: rest, s.drive)
  | none =>
    if isDotDot segment then (s.up.written, s.drive)
    else if isDot segment then (s.written, s.drive)
    else
      let (segment, drive) := s.placed kind segment
      (s.written ++ segment, s.drive || drive)

end PathState

/-- The segments of a path between slashes; in special schemes `\` is a slash too. -/
def segments (kind : SchemeKind) (s : List Char) : List (List Char) :=
  (s.map fun c => if kind.isSpecial && c = '\\' then '/' else c).splitOn '/'

/-- The path for a text after the first slash, and whether it began with a drive letter. Slashes at
the start of a file's path are one. -/
def readPath (kind : SchemeKind) (s : List Char) : List Char × Bool :=
  let segments := (segments kind s).map (encode inPath)
  let state := segments.dropLast.foldl (PathState.push kind) ⟨[], false⟩
  let (path, drive) := state.finish kind (segments.getLast?.getD [])
  ('/' :: if kind = .file then path.dropWhile (· = '/') else path, drive)

end AdLedger.Url
