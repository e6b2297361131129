import Orchestrator.Lib.PyStr

/-!
`urllib.parse.urlparse` and `PurePosixPath.suffix`, over code points.

What makes the parser refuse a network location, an IPv6 literal that is none or
a character that normalizes to a delimiter, is a parameter. Query, parameters
and fragment are cut off and not kept.
-/

namespace UrlParse

structure ParseResult where
  scheme : String
  netloc : String
  path : String
  deriving DecidableEq

/-- The schemes whose last path segment may carry parameters. -/
def usesParams : List String :=
  ["", "ftp", "hdl", "prospero", "http", "imap", "https", "shttp", "rtsp", "rtsps", "rtspu",
    "sip", "sips", "mms", "sftp", "tel"]

def isSchemeChar (c : Char) : Bool := c.isAlphanum || c = '+' || c = '-' || c = '.'

/-- The scheme in front of the first colon, when there is one, and the rest. -/
def splitScheme (url : List Char) : List Char × List Char :=
  let head := url.takeWhile (· ≠ ':')
  if head.length < url.length ∧ head.head?.any Char.isAlpha ∧ head.all isSchemeChar then
    (head.map PyStr.lowerChar, url.drop (head.length + 1))
  else ([], url)

def isDelimiter (c : Char) : Bool := c = '/' || c = '?' || c = '#'

def splitNetloc : List Char → List Char × List Char
  | '/' :: '/' :: rest =>
      (rest.takeWhile (fun c => !isDelimiter c), rest.dropWhile (fun c => !isDelimiter c))
  | url => ([], url)

/-- The path without the parameters of its last segment. -/
def cutParams (path : List Char) : List Char :=
  let segment := (path.reverse.takeWhile (· ≠ '/')).reverse
  path.take (path.length - segment.length) ++ segment.takeWhile (· ≠ ';')

def urlparse (checkNetloc : String → Except String Unit) (url : String) :
    Except String ParseResult := do
  let stripped := (url.toList.dropWhile (·.toNat ≤ 0x20)).filter (· ∉ ['\t', '\r', '\n'])
  let (scheme, afterScheme) := splitScheme stripped
  let (netloc, afterNetloc) := splitNetloc afterScheme
  checkNetloc (String.ofList netloc)
  let path := (afterNetloc.takeWhile (· ≠ '#')).takeWhile (· ≠ '?')
  return {
    scheme := String.ofList scheme
    netloc := String.ofList netloc
    path := String.ofList (if String.ofList scheme ∈ usesParams then cutParams path else path) }

/-- `PurePosixPath(path).name`: empty and `.` segments do not count. -/
def pathName (path : String) : List Char :=
  (((path.toList.splitOn '/').filter (fun s => s ≠ [] && s ≠ ['.'])).getLast?).getD []

def suffix (path : String) : String :=
  let name := pathName path
  let tail := (name.reverse.takeWhile (· ≠ '.')).reverse
  if tail ≠ [] ∧ tail.length + 1 < name.length then String.ofList ('.' :: tail) else ""

example : urlparse (fun _ => .ok ()) "HTTPS://cdn.example/a/b.MP4;v=1?x#y" =
    .ok ⟨"https", "cdn.example", "/a/b.MP4"⟩ := by decide
example : suffix "/a.b/clip.mp4" = ".mp4" := by decide
example : suffix "/a/.mp4" = "" := by decide

end UrlParse
