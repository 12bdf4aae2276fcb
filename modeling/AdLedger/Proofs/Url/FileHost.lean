import AdLedger.Url.Reader
import Mathlib

/-!
# Files on a host whose paths begin with a drive letter

A file's URL that names a host can have a path that begins with a drive letter, if it was spelled
with one slash too many. In its written form the slash is gone, and there the drive letter takes the
host away: such a URL is not what its own text reads as.
-/

namespace AdLedger.Url

def driveOnHost : Url :=
  ⟨"file".toList, some ⟨[], [], "h".toList, none⟩, "/C:".toList, none, none⟩

def driveAlone : Url :=
  ⟨"file".toList, some ⟨[], [], [], none⟩, "/C:".toList, none, none⟩

/-! ## Parts of its text -/

theorem specialHost?_h : specialHost? "h".toList = some "h".toList := by cbv

theorem schemeKind_file : schemeKind "file".toList = .file := by cbv

theorem readPath_drive : readPath .file "C:".toList = ("/C:".toList, true) := by cbv

theorem readPath_slash_drive : readPath .file "/C:".toList = ("/C:".toList, false) := by cbv

/-- A host and what follows it, the path being read from there. -/
theorem readFile?_host {s rest path host : List Char} {drive : Bool}
    (hs : cut (fun c => c = '/' || c = '\\') s = (host, '/' :: rest))
    (hd : (host.isEmpty || isDrive host) = false) (hh : specialHost? host = some host)
    (hl : host ≠ "localhost".toList) (hp : readPath .file rest = (path, drive)) :
    readFile? s = some (if drive then [] else host, path) := by
  have hslash : isSlash .file '/' = true := rfl
  unfold readFile?
  simp only [hs, hd, hh, hl, authorityPath, hslash, if_true, hp, bind, Option.bind, pure]
  rfl

/-- The URL of a file on a host without query and fragment. -/
theorem read?_file {text : String} {s path host : List Char}
    (hc : takeScheme? (cleaned text.toList) = some ("file".toList, '/' :: '/' :: s))
    (ht : cut endsPath ('/' :: '/' :: s) = ('/' :: '/' :: s, []))
    (hf : readFile? s = some (host, path)) :
    Url.read? text = some ⟨"file".toList, some ⟨[], [], host, none⟩, path, none, none⟩ := by
  have hslash : isSlash .file '/' = true := rfl
  have htail : readTail .file [] = (none, none) := rfl
  unfold Url.read?
  simp only [hc, schemeKind_file, ht, readHierarchy?, hslash, hf, htail, bind, Option.bind]
  rfl

theorem readFile?_h {s rest path : List Char} {drive : Bool}
    (hs : cut (fun c => c = '/' || c = '\\') s = ("h".toList, '/' :: rest))
    (hp : readPath .file rest = (path, drive)) :
    readFile? s = some (if drive then [] else "h".toList, path) :=
  readFile?_host hs (by cbv) specialHost?_h (by decide) hp

/-! ## Its two readings -/

theorem text_driveOnHost : driveOnHost.text = "file://h/C:" := by cbv

/-- The host is kept where a slash comes between it and the drive. -/
theorem read?_driveOnHost : Url.read? "file://h//C:" = some driveOnHost := by
  have hc : takeScheme? (cleaned "file://h//C:".toList) =
      some ("file".toList, "//h//C:".toList) := by cbv
  have hs : cut (fun c => c = '/' || c = '\\') "h//C:".toList = ("h".toList, "//C:".toList) := by
    cbv
  exact read?_file hc (by cbv) (readFile?_h hs readPath_slash_drive)

/-- It is lost where none does. -/
theorem read?_text_driveOnHost : Url.read? driveOnHost.text = some driveAlone := by
  have hc : takeScheme? (cleaned "file://h/C:".toList) =
      some ("file".toList, "//h/C:".toList) := by cbv
  have hs : cut (fun c => c = '/' || c = '\\') "h/C:".toList = ("h".toList, "/C:".toList) := by
    cbv
  rw [text_driveOnHost]
  exact read?_file hc (by cbv) (readFile?_h hs readPath_drive)

theorem hasHost_driveAlone : driveAlone.hasHost = false := rfl

end AdLedger.Url
