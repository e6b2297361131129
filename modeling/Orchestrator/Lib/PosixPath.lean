import Orchestrator.Lib.UrlParse

/-!
`pathlib` paths of POSIX, and names that end in an extension.

A path keeps its root and its parts; empty and `.` parts are no parts. A root of
exactly two slashes is another than one of one slash.
-/

structure PosixPath where
  root : String
  parts : List String
  deriving DecidableEq, Repr

namespace PosixPath

/-- The slashes that a path keeps of those it starts with. -/
def rootOf (path : List Char) : String :=
  match (path.takeWhile (· = '/')).length with
  | 0 => ""
  | 2 => "//"
  | _ => "/"

/-- `Path(path)`. -/
def ofString (path : String) : PosixPath where
  root := rootOf path.toList
  parts := ((path.toList.splitOn '/').filter fun part => part ≠ [] && part ≠ ['.']).map
    String.ofList

/-- `left / right`; a right side with a root stands alone. -/
def join (left right : PosixPath) : PosixPath :=
  if right.root = "" then ⟨left.root, left.parts ++ right.parts⟩ else right

example : (ofString "/srv//media/").join (ofString "./run-1/a.png")
    = ⟨"/", ["srv", "media", "run-1", "a.png"]⟩ := by decide

/-- `path[: -len(suffix)] if suffix else path`, for the suffix of the path. -/
def withoutSuffix (path : String) : String :=
  if UrlParse.suffix path = "" then path
  else String.ofList (path.toList.take (path.length - (UrlParse.suffix path).length))

example : withoutSuffix "run-1/a.b.png" = "run-1/a.b" := by decide
example : withoutSuffix "run-1/.png" = "run-1/.png" := by decide

/-- `f"{base}.{extension}"`. -/
def withExtension (base extension : String) : String := base ++ "." ++ extension

theorem rtakeWhile_dot (base : List Char) {ext : List Char} (hext : '.' ∉ ext) :
    (base ++ '.' :: ext).rtakeWhile (· ≠ '.') = ext := by
  induction ext using List.reverseRecOn with
  | nil => exact List.rtakeWhile_concat_neg _ _ _ (by simp)
  | append_singleton ext c ih =>
      rw [List.mem_append, List.mem_singleton, not_or] at hext
      have hlast : List.rtakeWhile (· ≠ '.') (base ++ '.' :: ext ++ [c])
          = List.rtakeWhile (· ≠ '.') (base ++ '.' :: ext) ++ [c] :=
        List.rtakeWhile_concat_pos _ _ _ (decide_eq_true (Ne.symm hext.2))
      rw [← List.cons_append, ← List.append_assoc, hlast, ih hext.1]

/-- Extensions without dots and what stands before them can be told from the whole. -/
theorem withExtension_inj {base base' extension extension' : String}
    (hext : '.' ∉ extension.toList) (hext' : '.' ∉ extension'.toList) :
    withExtension base extension = withExtension base' extension' ↔
      base = base' ∧ extension = extension' := by
  constructor
  · intro h
    have hlist : base.toList ++ '.' :: extension.toList
        = base'.toList ++ '.' :: extension'.toList := by
      have htexts := congrArg String.toList h
      simpa [withExtension, String.toList_append] using htexts
    have hends : extension.toList = extension'.toList := by
      rw [← rtakeWhile_dot base.toList hext, hlist, rtakeWhile_dot base'.toList hext']
    rw [hends] at hlist
    exact ⟨String.toList_inj.mp (List.append_cancel_right hlist), String.toList_inj.mp hends⟩
  · rintro ⟨rfl, rfl⟩
    rfl

end PosixPath
