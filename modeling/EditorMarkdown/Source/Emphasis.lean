import EditorMarkdown.Event.Basic
import EditorMarkdown.Text.Blank
import EditorMarkdown.Text.Punctuation

/-!
Delimiter runs and how they pair up. A run of `*`, `_` or `~` can open or close depending on the
characters beside it; a closing run is paired with the nearest opening run that suits it.
-/

namespace EditorMarkdown.Source

/-- Whether a run of delimiters can open: given the characters before and after it on its line. -/
def canOpen (delimiter : Char) (length : Nat) (before after : Option Char) : Bool :=
  match after, before with
  | none, _ => false
  | some next, none => !Text.isWhite next
  | some next, some previous =>
      !Text.isWhite next &&
        ((delimiter = '*' && !Text.isPunctuation next) || (delimiter = '~' && 1 < length) ||
          (delimiter = '~' && previous = '~' && !Text.isPunctuation next) ||
          Text.isWhite previous || Text.isPunctuation previous)

def canClose (delimiter : Char) (length : Nat) (before after : Option Char) : Bool :=
  match before, after with
  | none, _ => false
  | some previous, none => !Text.isWhite previous
  | some previous, some next =>
      !Text.isWhite previous &&
        (((delimiter = '*' || (delimiter = '~' && 1 < length)) &&
            !Text.isPunctuation previous) ||
          (delimiter = '~' && previous = '~') ||
          Text.isWhite next || Text.isPunctuation next)

/-- A delimiter run. Its tail is what belongs to it as text after the last delimiter. -/
structure Run where
  delimiter : Char
  length : Nat
  opens : Bool
  closes : Bool
  tail : List Char := []
  deriving DecidableEq, Repr, Inhabited

def Run.both (run : Run) : Bool := run.opens && run.closes

/-- Whether two runs may be paired: the same delimiter, the same length for tildes, and no sum
divisible by three if one of them both opens and closes, unless both lengths are. -/
def Run.pairs (opener closer : Run) : Bool :=
  opener.delimiter = closer.delimiter &&
    (closer.delimiter ≠ '~' || opener.length = closer.length) &&
    ((!opener.both && !closer.both) || (opener.length + closer.length) % 3 ≠ 0 ||
      closer.length % 3 = 0)

/-- A piece of inline content: a tree, a run whose role is not settled, or a backslash that makes a
hard break. -/
inductive Piece where
  | tree (tree : Tree)
  | run (run : Run)
  | escapedBreak
  deriving Repr, Inhabited

def Piece.isRun : Piece → Bool
  | .run _ => true
  | _ => false

/-- An opening run with `count` delimiters left, and the trees before it, the last one first. -/
structure Opener where
  run : Run
  count : Nat
  before : List Tree
  deriving Repr, Inhabited

def delimiters (delimiter : Char) (count : Nat) : Tree := .text (List.replicate count delimiter)

/-- The trees when an opener turns out to be text, given the reversed trees after it. -/
def Opener.release (opener : Opener) (after : List Tree) : List Tree :=
  after ++ delimiters opener.run.delimiter opener.count :: opener.before

/-- Trees within `count` delimiters on each side. Pairs are strong and stand inside. -/
def wrapEmphasis : Nat → List Tree → List Tree
  | 0, trees => trees
  | 1, trees => [.node .emphasis trees]
  | count + 2, trees => wrapEmphasis count [.node .strong trees]

def wrapDelimited (delimiter : Char) (count : Nat) (trees : List Tree) : List Tree :=
  if delimiter = '~' then [.node .strike trees] else wrapEmphasis count trees

/-- The nearest opener that suits a closing run, the reversed trees after it with the openers in
between as text, and the openers before it. -/
def findOpener (closer : Run) : List Opener → List Tree → Option (Opener × List Tree × List Opener)
  | [], _ => none
  | opener :: rest, after =>
      if opener.run.pairs closer then some (opener, after, rest)
      else findOpener closer rest (opener.release after)

/-- Turns the openers of tilde runs into text. -/
def releaseTildes : List Opener → List Tree → List Opener × List Tree
  | [], after => ([], after)
  | opener :: rest, after =>
      if opener.run.delimiter = '~' then releaseTildes rest (opener.release after)
      else
        let (kept, before) := releaseTildes rest opener.before
        ({ opener with before := before } :: kept, after)

/-- Openers and the reversed trees after the innermost of them. -/
structure Pairing where
  openers : List Opener
  trees : List Tree
  deriving Repr, Inhabited

private def Pairing.keep (run : Run) (count : Nat) (pairing : Pairing) : Pairing :=
  if run.opens then ⟨⟨run, count, pairing.trees⟩ :: pairing.openers, []⟩
  else
    let text := List.replicate count run.delimiter ++ run.tail
    { pairing with trees := .text text :: pairing.trees }

/-- Adds a run with `count` delimiters left. A tilde run that closes nothing leaves no tilde run
open before it. -/
private def Pairing.close (run : Run) : Nat → Nat → Pairing → Pairing
  | 0, _, pairing => pairing
  | fuel + 1, count, pairing =>
      if count = 0 then pairing
      else
        match findOpener run pairing.openers pairing.trees with
        | none =>
            if run.delimiter = '~' then
              let (openers, trees) := releaseTildes pairing.openers pairing.trees
              Pairing.keep run count ⟨openers, trees⟩
            else pairing.keep run count
        | some (opener, inner, openers) =>
            let matched := min count opener.count
            let wrapped := (wrapDelimited run.delimiter matched inner.reverse).reverse
            if matched < opener.count then
              Pairing.close run fuel (count - matched)
                ⟨{ opener with count := opener.count - matched } :: openers, wrapped⟩
            else Pairing.close run fuel (count - matched) ⟨openers, wrapped ++ opener.before⟩

def Pairing.add (pairing : Pairing) : Piece → Pairing
  | .tree tree => { pairing with trees := tree :: pairing.trees }
  | .escapedBreak => { pairing with trees := .leaf .hardBreak :: pairing.trees }
  | .run run =>
      if run.closes then pairing.close run run.length run.length
      else pairing.keep run run.length

def releaseAll : List Opener → List Tree → List Tree
  | [], trees => trees
  | opener :: rest, trees =>
      trees ++ delimiters opener.run.delimiter opener.count :: releaseAll rest opener.before

/-- The pieces of a sequence, the last one first, with a backslash for a break that is made by it
and that ends a sequence with runs. -/
def settleEnd : List Piece → List Piece
  | .escapedBreak :: before =>
      if before.any Piece.isRun then .tree (.text ['\\']) :: before else .escapedBreak :: before
  | pieces => pieces

def pairRuns (pieces : List Piece) : List Tree :=
  let pairing := (settleEnd pieces).reverse.foldl Pairing.add ⟨[], []⟩
  (releaseAll pairing.openers pairing.trees).reverse

end EditorMarkdown.Source
