import Cinder.Host.HostValues
set_option autoImplicit false

namespace Cinder.Papers
open Cinder.Host

structure TokenUsage where
  inputTokens : Nat
  outputTokens : Nat
  deriving DecidableEq, Repr

structure TextCompletion where
  content : String
  usage : TokenUsage
  deriving DecidableEq, Repr

structure Part where
  text : Option String

structure Content where
  parts : List Part

structure Candidate where
  content : Option Content

structure UsageMetadata where
  promptTokenCount : Nat
  candidatesTokenCount : Nat

/-- A reply as it is read, with the defaults where something is missing. -/
structure Reply where
  candidates : List Candidate
  usageMetadata : UsageMetadata

structure PaperCandidate where
  title : String
  url : String
  board : String
  year : String
  session : String
  variant : String
  snippet : String
  deriving DecidableEq, Repr

/-- The box is top, left, bottom and right. -/
structure PaperFigure where
  page : Nat
  box2d : Nat × Nat × Nat × Nat
  caption : String
  alt : String
  deriving DecidableEq, Repr

/-- What the JSON library makes of a text, at each of the types. -/
structure JsonReaders where
  reply : String → Except String Reply
  candidates : String → Except String (List PaperCandidate)
  figures : String → Except String (List PaperFigure)
  errorMessage : String → Option String

structure ProviderAnswer where
  success : Bool
  status : String
  raw : Except String String

def context {α : Type} (what : String) (x : Except String α) : Except String α :=
  x.mapError fun e => what ++ ": " ++ e

def parseGenerationReply (readers : JsonReaders) (raw : String) : Except String TextCompletion := do
  let parsed ← context "Google sent a reply we could not read" (readers.reply raw)
  let usage : TokenUsage :=
    ⟨parsed.usageMetadata.promptTokenCount, parsed.usageMetadata.candidatesTokenCount⟩
  let content := ((parsed.candidates.head?.bind (·.content)).map fun content =>
    String.join (content.parts.filterMap (·.text))).getD ""
  if trim content = "" then .error "Google sent an empty reply"
  else .ok ⟨content, usage⟩

/-- `trim_start_matches` with a text. -/
def dropPrefixes (start : List Char) : Nat → List Char → List Char
  | 0, s => s
  | n+1, s => if start.isPrefixOf s then dropPrefixes start n (s.drop start.length) else s

def trimTicks (s : List Char) : List Char :=
  ((s.dropWhile fun c => c = '\x60').reverse.dropWhile fun c => c = '\x60').reverse

/-- `rfind`. -/
def lastIndexOf (c : Char) (s : List Char) : Option Nat :=
  (s.reverse.idxOf? c).map fun i => s.length - 1 - i

def firstBracket (s : List Char) : Option Nat :=
  match s.idxOf? '[', s.idxOf? '\x7b' with
  | some array, some object => some (min array object)
  | some array, none => some array
  | none, object => object

def lastBracket (s : List Char) : Option Nat :=
  match lastIndexOf ']' s, lastIndexOf '\x7d' s with
  | some array, some object => some (max array object)
  | some array, none => some array
  | none, object => object

/-- The reply without the prose or the fence around its JSON. -/
def extractJson (text : String) : String :=
  let fence := "\x60\x60\x60json".toList
  let trimmed := (trim text).toList
  let trimmed := trimTicks (dropPrefixes fence trimmed.length trimmed)
  match firstBracket trimmed, lastBracket trimmed with
  | some start, some last =>
    if last ≤ start then String.ofList trimmed
    else trim (String.ofList ((trimmed.drop start).take (last + 1 - start)))
  | _, _ => String.ofList trimmed

example : extractJson "\x60\x60\x60json\n[\x7b\"a\":1\x7d]\n\x60\x60\x60" = "[\x7b\"a\":1\x7d]" ∧
    extractJson "Here you go: [1,2] - hope that helps" = "[1,2]" := by decide

def readCandidates (readers : JsonReaders) (content : String) :
    Except String (List PaperCandidate) := do
  let candidates ← context "the AI did not return a usable list of papers"
    (readers.candidates (extractJson content))
  .ok ((candidates.filter fun candidate => trim candidate.url ≠ "").take 8)

def isBox : Nat × Nat × Nat × Nat → Bool
  | (top, left, bottom, right) => bottom > top && right > left && bottom ≤ 1000 && right ≤ 1000

def readFigures (readers : JsonReaders) (content : String) : Except String (List PaperFigure) := do
  let figures ← context "the AI did not return usable figure positions"
    (readers.figures (extractJson content))
  .ok ((figures.filter fun figure => isBox figure.box2d).take 40)

end Cinder.Papers
