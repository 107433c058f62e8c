import EditorMarkdown.Source.Emphasis
import EditorMarkdown.Source.Link
import EditorMarkdown.Source.Tag

/-!
Inline content. A scan goes over the parts once, from left to right: code spans, raw HTML and links
are settled on the way, and delimiter runs are left as pieces to be paired afterwards. Every opening
bracket is kept until its partner tells whether it begins a link.
-/

namespace EditorMarkdown.Source

/-- What surrounds inline content: its containers, outermost first, whether it stands in a table,
and the definitions of the document. -/
structure Surroundings where
  containers : List Container
  inTable : Bool
  definitions : List Definition
  deriving Repr, Inhabited

def Surroundings.enterLine? (surroundings : Surroundings) (line : Spot) : Option Spot :=
  some (Container.skipMarks surroundings.containers line)

/-- An opening bracket that waits for its partner: whether it follows an exclamation mark, whether
it may still begin a link, the pieces before it, the last one first, its place, and its text. -/
structure Bracket where
  image : Bool
  active : Bool
  before : List Piece
  place : Spot
  text : List Char
  deriving Repr, Inhabited

/-- The state of a scan: the brackets that are open, innermost first, the pieces after the innermost
one, the last one first, and how many characters references may still expand to. -/
structure Scan where
  brackets : List Bracket
  pieces : List Piece
  allowance : Nat
  deriving Repr, Inhabited

namespace Scan

def push (tree : Tree) (scan : Scan) : Scan := { scan with pieces := .tree tree :: scan.pieces }

def text (text : List Char) (scan : Scan) : Scan := scan.push (.text text)

end Scan

def Bracket.release (bracket : Bracket) (after : List Piece) : List Piece :=
  after ++ .tree (.text bracket.text) :: bracket.before

def deactivateLinks (brackets : List Bracket) : List Bracket :=
  brackets.map fun bracket => if bracket.image then bracket else { bracket with active := false }

namespace Scan

/-- Makes the pieces since a bracket, already removed from the scan, its link or image. -/
def link (bracket : Bracket) (url title : List Char) (scan : Scan) : Scan :=
  let children := pairRuns scan.pieces
  let tag :=
    if bracket.image then Tag.image (String.ofList url) (String.ofList title)
    else Tag.link (String.ofList url) (String.ofList title)
  { scan with
    brackets := if bracket.image then scan.brackets else deactivateLinks scan.brackets
    pieces := .tree (.node tag children) :: bracket.before }

def lookup? (surroundings : Surroundings) (label : List Char) (scan : Scan) : Option Definition :=
  if scan.allowance = 0 then none else lookupDefinition label surroundings.definitions

/-- Takes what a definition expands to off the allowance, counted in bytes. -/
def spend (definition : Definition) (scan : Scan) : Scan :=
  let bytes := fun (text : List Char) => (String.ofList text).utf8ByteSize
  { scan with allowance := scan.allowance - (bytes definition.url + bytes definition.title) }

end Scan

def settle : List Bracket → List Piece → List Piece
  | [], pieces => pieces
  | bracket :: rest, pieces => pieces ++ .tree (.text bracket.text) :: settle rest bracket.before

/-! References. -/

/-- How the text of a link refers to a definition: by a label of its own that ends at an offset, by
a pair of brackets after it, or by itself. -/
private inductive Reference where
  | full (label : List Char) (stop : Nat)
  | collapsed
  | shortcut

private def referenceOf (surroundings : Surroundings) (spot : Spot) (parts : List Part) :
    Reference :=
  match parts with
  | [] => .shortcut
  | part :: _ =>
      let place := spot.forwardTo part.start
      if ['[', ']'].isPrefixOf place.rest then .collapsed
      else if place.rest.head? ≠ some '[' then .shortcut
      else
        match label? surroundings.inTable surroundings.enterLine? place with
        | some (label, next) => .full label next.offset
        | none => .shortcut

private def ownLabel? (surroundings : Surroundings) (place : Spot) (stop : Nat) :
    Option (List Char) :=
  (label? surroundings.inTable surroundings.enterLine? (place.within stop)).bind
    fun (label, next) => if next.offset = stop then some label else none

/-- The parts with the closing bracket of a label, which ends at an offset, no longer fresh. -/
private def spoil (stop : Nat) : List Part → List Part
  | [] => []
  | part :: rest =>
      if part.stop < stop then part :: spoil stop rest
      else { part with sign := .closeBracket false } :: rest

private def Reference.target? (surroundings : Surroundings) (place : Spot) (close : Part)
    (fresh : Bool) (parts : List Part) : Reference → Option (List Char × List Part)
  | .full label stop => some (label, (parts.dropWhile fun part => part.stop < stop).drop 1)
  | .collapsed =>
      if fresh then (ownLabel? surroundings place close.stop).map fun label => (label, parts.drop 2)
      else none
  | .shortcut =>
      if fresh then (ownLabel? surroundings place close.stop).map fun label => (label, parts)
      else none

/-- Takes in a closing bracket at a place, given the parts after it; gives those that are still to
be read. -/
private def Scan.close (surroundings : Surroundings) (spot : Spot) (close : Part) (fresh : Bool)
    (parts : List Part) (scan : Scan) : Scan × List Part :=
  let text := spot.textTo close.stop
  match scan.brackets with
  | [] => (scan.text text, parts)
  | bracket :: brackets =>
      let literal : Scan :=
        { scan with
          brackets := brackets, pieces := .tree (.text text) :: bracket.release scan.pieces }
      let scan := { scan with brackets := brackets }
      if !bracket.active then (literal, parts)
      else
        let after := spot.forwardTo close.stop
        match resource? surroundings.containers surroundings.inTable parts after with
        | some (url, title, next) => (scan.link bracket url title, Part.after next.offset parts)
        | none =>
            let reference := referenceOf surroundings after parts
            let parts :=
              match reference with
              | .full _ stop => spoil stop parts
              | _ => parts
            match reference.target? surroundings bracket.place close fresh parts with
            | none => (literal, parts)
            | some (label, rest) =>
                match scan.lookup? surroundings label with
                | some definition =>
                    ((scan.link bracket definition.url definition.title).spend definition, rest)
                | none => (literal, parts)

/-! Code spans. -/

def stripSpan (content : List Char) : List Char :=
  if content.head? = some ' ' && content.getLast? = some ' ' && !content.all (· = ' ') then
    (content.drop 1).dropLast
  else content

/-- A text with a space for each character of its line ends and, in a table, without the backslash
before a pipe. -/
def spanText (inTable : Bool) : List Char → List Char
  | [] => []
  | '\\' :: '|' :: rest =>
      if inTable then '|' :: spanText inTable rest else '\\' :: '|' :: spanText inTable rest
  | c :: rest => (if c = '\n' || c = '\r' then ' ' else c) :: spanText inTable rest

private def codeBetween (surroundings : Surroundings) (start stop : Nat) (spot : Spot) :
    List Char :=
  let raw := (spot.forwardTo start).within stop
  stripSpan (spanText surroundings.inTable (raw.inside surroundings.containers).text)

private def codeEnd? (count : Nat) : List Part → Option (Part × List Part)
  | [] => none
  | part :: rest =>
      match part.sign with
      | .ticks length _ => if length = count then some (part, rest) else codeEnd? count rest
      | _ => codeEnd? count rest

/-! Autolinks and tags. -/

private def isMailChar (c : Char) : Bool :=
  c.isAlphanum || ".!#$%&'*+/=?^_\x60\x7b|\x7d~-".toList.contains c

/-- Whether a text is a mail host: labels of letters, digits and inner hyphens between dots. -/
private def isMailHost (text : List Char) : Bool :=
  let labels := text.foldr (fun c labels =>
    if c = '.' then [] :: labels
    else
      match labels with
      | [] => [[c]]
      | label :: labels => (c :: label) :: labels) [[]]
  labels.all fun label =>
    !label.isEmpty && label.length ≤ 63 && label.all (fun c => c.isAlphanum || c = '-') &&
      label.head? ≠ some '-' && label.getLast? ≠ some '-'

private def isSchemeChar (c : Char) : Bool := c.isAlphanum || c = '.' || c = '-' || c = '+'

/-- The address of an autolink, after its `<`. -/
def autolink? (text : List Char) : Option (List Char) :=
  let address := text.takeWhile fun c => ' ' < c && c ≠ '<' && c ≠ '>'
  if (text.drop address.length).head? ≠ some '>' then none
  else
    let scheme := address.takeWhile isSchemeChar
    let isUri := (address.head?.map Char.isAlpha) = some true && 2 ≤ scheme.length &&
      scheme.length ≤ 32 && (address.drop scheme.length).head? = some ':'
    let user := address.takeWhile isMailChar
    let isMail := !user.isEmpty && (address.drop user.length).head? = some '@' &&
      isMailHost (address.drop (user.length + 1))
    if isUri || isMail then some address else none

/-- The text of a piece of inline HTML, after its `<`, and the offset after it. A tag does not hold
the marks of its lines; comments and their like hold all that stands between their ends. -/
def inlineHtml? (containers : List Container) (spot : Spot) : Option (List Char × Nat) :=
  match spot.rest with
  | '!' :: _ | '?' :: _ =>
      (specialLength? spot.rest).map fun length => (spot.rest.take length, spot.offset + length)
  | _ =>
      let view := spot.inside containers
      (tagLength? true view.text).map fun length =>
        (view.text.take length, view.stop spot.offset length)

private def Scan.angle (surroundings : Surroundings) (text : List Char) (spot : Spot)
    (parts : List Part) (scan : Scan) : Scan × List Part :=
  match autolink? spot.rest with
  | some address =>
      (scan.push (.node (.link (String.ofList address) "") [.text address]),
        Part.after (spot.offset + address.length + 1) parts)
  | none =>
      match inlineHtml? surroundings.containers spot with
      | some (html, stop) =>
          (scan.push (.leaf (.inlineHtml (String.ofList ('<' :: html)))), Part.after stop parts)
      | none => (scan.text text, parts)

/-! The scan. -/

private def Scan.part (surroundings : Surroundings) (spot : Spot) (part : Part)
    (parts : List Part) (scan : Scan) : Scan × List Part :=
  let text := spot.textTo part.stop
  match part.sign with
  | .text => (scan.text text, parts)
  | .value characters => (scan.text characters, parts)
  | .softBreak => (scan.push (.leaf .softBreak), parts)
  | .hardBreak false => (scan.push (.leaf .hardBreak), parts)
  | .hardBreak true => ({ scan with pieces := .escapedBreak :: scan.pieces }, parts)
  | .run run =>
      ({ scan with pieces := .run { run with tail := text.drop run.length } :: scan.pieces }, parts)
  | .ticks count escaped =>
      let length := if escaped then count - 1 else count
      match if length = 0 then none else codeEnd? length parts with
      | none => (scan.text text, parts)
      | some (close, rest) =>
          let code := codeBetween surroundings part.stop close.start spot
          let scan := if escaped then scan.text (text.take 1) else scan
          (scan.push (.leaf (.code (String.ofList code))), rest)
  | .angle =>
      match parts with
      | [] => (scan.text text, parts)
      | next :: _ => scan.angle surroundings text (spot.forwardTo next.start) parts
  | .openBracket image =>
      let place := spot.forwardTo (part.stop - 1)
      ({ scan with
        brackets := ⟨image, true, scan.pieces, place, text⟩ :: scan.brackets, pieces := [] }, parts)
  | .closeBracket fresh => scan.close surroundings spot part fresh parts

private def Scan.run (surroundings : Surroundings) : Nat → Spot → List Part → Scan → Scan
  | 0, _, _, scan => scan
  | _, _, [], scan => scan
  | fuel + 1, spot, part :: parts, scan =>
      let spot := spot.forwardTo part.start
      let (scan, parts) := scan.part surroundings spot part parts
      Scan.run surroundings fuel spot parts scan

def inlineTrees (surroundings : Surroundings) (allowance : Nat) (content : Content) :
    List Tree × Nat :=
  let scan :=
    Scan.run surroundings content.parts.length content.source content.parts ⟨[], [], allowance⟩
  (pairRuns (settle scan.brackets scan.pieces), scan.allowance)

end EditorMarkdown.Source
