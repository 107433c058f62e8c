import EditorMarkdown.Source.Container
import EditorMarkdown.Source.Part
import EditorMarkdown.Text.CaseFolding
import EditorMarkdown.Text.Lines

/-!
Destinations, titles and labels of links, and definitions. Each reader gives what it read and how
many characters of the text belong to it, or the place after it.
-/

namespace EditorMarkdown.Source

private def bracketed? : List Char → Option (List Char)
  | [] => none
  | '>' :: _ => some []
  | '\\' :: c :: rest =>
      if Text.isAsciiPunctuation c then (bracketed? rest).map ('\\' :: c :: ·)
      else (bracketed? (c :: rest)).map ('\\' :: ·)
  | c :: rest =>
      if c = '\n' || c = '\r' || c = '<' then none else (bracketed? rest).map (c :: ·)

/-- The text up to a blank, a control character or a parenthesis that was not opened in it.
Parentheses nest at most 33 deep. -/
private def bare? : Nat → List Char → Option (List Char)
  | depth, [] => if depth = 0 then some [] else none
  | depth, '\\' :: c :: rest =>
      if Text.isAsciiPunctuation c then (bare? depth rest).map ('\\' :: c :: ·)
      else (bare? depth (c :: rest)).map ('\\' :: ·)
  | depth, '(' :: rest => if 32 < depth then none else (bare? (depth + 1) rest).map ('(' :: ·)
  | depth, ')' :: rest =>
      if depth = 0 then some [] else (bare? (depth - 1) rest).map (')' :: ·)
  | depth, c :: rest =>
      if c ≤ ' ' then if depth = 0 then some [] else none else (bare? depth rest).map (c :: ·)

def destination? (inTable : Bool) (text : List Char) : Option (List Char × Nat) :=
  match text with
  | '<' :: rest =>
      (bracketed? rest).map fun raw => (Text.unescape inTable raw, raw.length + 2)
  | _ => (bare? 0 text).map fun raw => (Text.unescape inTable raw, raw.length)

/-- The place after blanks with at most one line end among them, and whether there is one: then
`enter` gives the place where the content of the next line begins. Something follows the blanks. -/
private def gap? (enter : Spot → Option Spot) (spot : Spot) : Option (Bool × Spot) :=
  let next := spot.skipLineBlanks
  match lineEnd? next.rest with
  | none => some (false, next)
  | some length =>
      match enter (next.forward length) with
      | none => none
      | some line =>
          let last := line.skipLineBlanks
          if atEnd last.rest then none else some (true, last)

/-! Labels. -/

/-- What the reader of a label does at a character: it adds text, it counts on towards the limit,
it has seen a word, and `wait` more characters are dealt with. -/
private structure LabelStep where
  text : List Char
  weight : Nat
  isWord : Bool
  wait : Nat

/-- The step at a backslash before `rest`. A pipe in a table loses the backslashes before it. -/
private def labelEscape? (inTable : Bool) (rest : List Char) : Option LabelStep :=
  match rest with
  | [] => none
  | d :: more =>
      if inTable && d = '|' then some ⟨[d], 2, false, 1⟩
      else if inTable && d = '\\' && more.head? = some '|' then some ⟨[], 1, false, 0⟩
      else some ⟨['\\', d], d.utf8Size + 1, 1 < d.utf8Size, 1⟩

/-- The step at the character `c`, which `rest` follows from an offset on. Characters beyond ASCII
count their bytes. -/
private def labelStep? (inTable : Bool) (enter : Spot → Option Spot) (offset : Nat) (c : Char)
    (rest : List Char) : Option LabelStep :=
  if c = '[' then none
  else if c = '\\' then labelEscape? inTable rest
  else if Text.isAsciiBlank c then
    (gap? enter ⟨offset, c :: rest⟩).map fun (_, next) =>
      ⟨[' '], next.offset - offset, false, next.offset - offset - 1⟩
  else some ⟨[c], if c.utf8Size = 1 then 0 else c.utf8Size, true, 0⟩

private def labelFrom (inTable : Bool) (enter : Spot → Option Spot) :
    Nat → Nat → Bool → List Char → Nat → List Char → Option (List Char × Spot)
  | _, _, _, _, _, [] => none
  | wait + 1, weight, words, text, offset, _ :: rest =>
      labelFrom inTable enter wait weight words text (offset + 1) rest
  | 0, weight, words, text, offset, c :: rest =>
      if 1000 ≤ weight then none
      else if c = ']' then if words then some (text.reverse, ⟨offset + 1, rest⟩) else none
      else
        match labelStep? inTable enter offset c rest with
        | none => none
        | some step =>
            labelFrom inTable enter step.wait (weight + step.weight) (words || step.isWord)
              (step.text.reverse ++ text) (offset + 1) rest

/-- No blanks at the ends, and no difference of case. -/
def normalizeLabel (label : List Char) : List Char :=
  Text.foldCase (Text.trimWhile Text.isAsciiBlank label)

/-- The label between brackets at a place, normalized, and the place after it. One space stands for
each run of blanks. A label has a word, and its weight stays below a thousand. -/
def label? (inTable : Bool) (enter : Spot → Option Spot) (spot : Spot) :
    Option (List Char × Spot) :=
  match spot.rest with
  | '[' :: rest =>
      (labelFrom inTable enter 0 0 false [] (spot.offset + 1) rest).map fun (label, next) =>
        (normalizeLabel label, next)
  | _ => none

/-! Resources of inline links. -/

def titleEnd? (opening : Char) : Option Char :=
  if opening = '(' then some ')'
  else if opening = '"' || opening = '\'' then some opening
  else none

private def titleStep (inTable : Bool) (parts : List Part) (spot : Spot) (c : Char)
    (rest : List Char) : List Char × Spot :=
  let inner :=
    if c = '\n' || c = '\r' then
      (parts.find? fun part => spot.offset + 1 < part.stop).bind fun part =>
        if spot.offset < part.start then some part.start else none
    else none
  match inner with
  | some start => (['\n'], spot.forwardTo start)
  | none =>
      if c = '&' then
        match Text.readReference rest with
        | some (characters, length) => (characters, spot.forward (length + 1))
        | none => ([c], spot.forward 1)
      else if c = '\\' then
        if inTable && ['\\', '|'].isPrefixOf rest then (['|'], spot.forward 3)
        else
          match rest with
          | d :: _ =>
              if Text.isAsciiPunctuation d then ([d], spot.forward 2) else ([c], spot.forward 1)
          | [] => ([c], spot.forward 1)
      else ([c], spot.forward 1)

private def titleFrom (inTable : Bool) (parts : List Part) (first last : Char) :
    Nat → List Char → Spot → Option (List Char × Spot)
  | 0, _, _ => none
  | fuel + 1, text, spot =>
      match spot.rest with
      | [] => none
      | c :: rest =>
          if c = last then some (text.reverse, spot.forward 1)
          else if c = first then none
          else
            let (more, next) := titleStep inTable parts spot c rest
            titleFrom inTable parts first last fuel (more.reverse ++ text) next

def title? (inTable : Bool) (parts : List Part) (spot : Spot) : Option (List Char × Spot) :=
  match spot.rest with
  | [] => none
  | c :: rest =>
      (titleEnd? c).bind fun last =>
        titleFrom inTable parts c last rest.length [] (spot.forward 1)

private def separated (containers : List Container) (spot : Spot) : Spot :=
  let next := spot.skipLineBlanks
  match lineEnd? next.rest with
  | some length => (Container.skipMarks containers (next.forward length)).skipLineBlanks
  | none => next

def resource? (containers : List Container) (inTable : Bool) (parts : List Part) (spot : Spot) :
    Option (List Char × List Char × Spot) :=
  if spot.rest.head? ≠ some '(' then none
  else
    let inner := separated containers (spot.forward 1)
    match destination? inTable inner.rest with
    | none => none
    | some (url, length) =>
        let after := separated containers (inner.forward length)
        let (title, last) :=
          match title? inTable parts after with
          | some (title, next) => (title, separated containers next)
          | none => ([], after)
        if last.rest.head? = some ')' then some (url, title, last.forward 1) else none

/-! Definitions. -/

structure Definition where
  label : List Char
  url : List Char
  title : List Char
  deriving DecidableEq, Repr, Inhabited

/-- Reads on in the title of a definition, past the next `wait` characters, with the text before,
the last character first. A further line of it is not blank. -/
private def definitionTitleFrom (enter : Spot → Option Spot) (last : Char) :
    Nat → List Char → Nat → List Char → Option (List Char × Spot)
  | _, _, _, [] => none
  | wait + 1, text, offset, _ :: rest =>
      definitionTitleFrom enter last wait text (offset + 1) rest
  | 0, text, offset, c :: rest =>
      if c = last then some (text.reverse, ⟨offset + 1, rest⟩)
      else if c = '\n' then
        match enter ⟨offset + 1, rest⟩ with
        | none => none
        | some line =>
            let inner := line.forward (line.rest.takeWhile Text.isBlank).length
            if isBlankLine inner.rest then none
            else
              definitionTitleFrom enter last (inner.offset - (offset + 1)) (c :: text) (offset + 1)
                rest
      else
        match if c = '\\' && !atEnd rest then rest.head? else none with
        | some d => definitionTitleFrom enter last 1 (d :: c :: text) (offset + 1) rest
        | none => definitionTitleFrom enter last 0 (c :: text) (offset + 1) rest

private def definitionTitle? (enter : Spot → Option Spot) (spot : Spot) :
    Option (List Char × Spot) :=
  match spot.rest with
  | [] => none
  | c :: rest =>
      (titleEnd? c).bind fun last =>
        (definitionTitleFrom enter last 0 [] (spot.offset + 1) rest).map fun (raw, next) =>
          (Text.unescape false raw, next)

/-- The definition at a place, and the place after it, which only blanks follow on its line.
`enter` gives the place in a further line where its content begins; the definition cannot go on with
a line that has none. -/
def definition? (enter : Spot → Option Spot) (spot : Spot) : Option (Definition × Spot) :=
  match label? false enter spot with
  | none => none
  | some (label, colon) =>
      if colon.rest.head? ≠ some ':' then none
      else
        match gap? enter (colon.forward 1) with
        | none => none
        | some (_, start) =>
            match destination? false start.rest with
            | none => none
            | some (url, length) =>
                let stop := start.forward length
                let untitled : Definition × Spot := (⟨label, url, []⟩, stop)
                if length = 0 then none
                else
                  match gap? enter stop with
                  | none => some untitled
                  | some (broken, begun) =>
                      let title :=
                        if begun.offset = stop.offset then none
                        else
                          (definitionTitle? enter begun).filter fun (_, next) =>
                            isBlankLine next.rest
                      match title with
                      | some (title, next) => some (⟨label, url, title⟩, next)
                      | none => if broken then some untitled else none

def lookupDefinition (label : List Char) (definitions : List Definition) : Option Definition :=
  definitions.find? fun definition => definition.label = label

end EditorMarkdown.Source
