import InvisibleString.Lib.Text

/- # `Shared.References` — the `@references` of a markdown text

A reference is an `@` that follows neither a word nor another `@`, and behind it a name with
dots.  Its first segment says what it is about.
-/

namespace InvisibleString.Shared

open Json

inductive ReferenceKind where
  | trigger (path : JsString)
  | step (slug path : JsString)
  | state (key : JsString)
  | item (path : JsString)
  | now
  | skill (slug : JsString)
  | connection (name : JsString)

structure ParsedReference where
  kind : ReferenceKind
  raw : JsString
  start : Nat
  stop : Nat

def isLetter (c : CodeUnit) : Bool :=
  (unit 'A' ≤ c && c ≤ unit 'Z') || (unit 'a' ≤ c && c ≤ unit 'z')

/-- `[A-Za-z0-9_-]`. -/
def isNameUnit (c : CodeUnit) : Bool :=
  isLetter c || (unit '0' ≤ c && c ≤ unit '9') || c == unit '_' || c == unit '-'

/-- `[A-Za-z0-9_.@-]`, which no reference follows. -/
def isBlocking (c : CodeUnit) : Bool := isNameUnit c || c == unit '.' || c == unit '@'

/-- The rest of a dotted name: a dot is part of it where a segment follows. -/
def nameTail : JsString → JsString
  | [] => []
  | c :: s =>
    if isNameUnit c || c == unit '.' && s.head?.any isNameUnit then c :: nameTail s else []

/-- The name behind an `@`. -/
def dottedName : JsString → Option JsString
  | [] => none
  | c :: s => if isLetter c then some (c :: nameTail s) else none

def at_ : JsString := ascii "@"

def dot : JsString := ascii "."

/-- The reference that a match at `start` stands for. -/
def classify (start : Nat) (name : JsString) : ParsedReference :=
  let segments := name.splitOn (unit '.')
  let head := segments.headD []
  let rest := join dot segments.tail
  let stop := start + name.length + 1
  if head = ascii "trigger" then ⟨.trigger rest, at_ ++ name, start, stop⟩
  else if head = ascii "steps" then
    ⟨.step (segments.tail.headD []) (join dot (segments.drop 2)), at_ ++ name, start, stop⟩
  else if head = ascii "state" then ⟨.state rest, at_ ++ name, start, stop⟩
  else if head = ascii "item" then ⟨.item rest, at_ ++ name, start, stop⟩
  else if head = ascii "now" then ⟨.now, ascii "@now", start, start + 4⟩
  else if head = ascii "skill" then ⟨.skill rest, at_ ++ name, start, stop⟩
  else ⟨.connection head, at_ ++ head, start, start + head.length + 1⟩

/-- The scan from a position on: `skip` units belong to the last match, `before` stands in
front. -/
def scanReferences (skip : Nat) (before : Option CodeUnit) (start : Nat) :
    JsString → List ParsedReference
  | [] => []
  | c :: s =>
    match skip with
    | skip + 1 => scanReferences skip (some c) (start + 1) s
    | 0 =>
      match if c == unit '@' && !before.any isBlocking then dottedName s else none with
      | some name =>
        classify start name :: scanReferences name.length (some c) (start + 1) s
      | none => scanReferences 0 (some c) (start + 1) s

/-- Every reference of a text, in its order. -/
def parseReferences (markdown : JsString) : List ParsedReference :=
  scanReferences 0 none 0 markdown

example : (parseReferences (ascii "a@b @linear.issues, @skill.notes. @now.x")).map
    (fun ref => (ref.raw, ref.start, ref.stop)) =
    [(ascii "@linear", 4, 11), (ascii "@skill.notes", 20, 32), (ascii "@now", 34, 38)] := by
  decide +kernel

end InvisibleString.Shared
