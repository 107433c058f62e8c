import EditorMarkdown.Source.Spot

/-!
Raw HTML. A scan takes the text after an opening `<` and gives how many characters belong to the
construct; it gives nothing if the construct is not complete.
-/

namespace EditorMarkdown.Source

private def isNameChar (c : Char) : Bool := c.isAlphanum || c = '-'

private def isAttributeStart (c : Char) : Bool := c.isAlpha || c = '_' || c = ':'

private def isAttributeChar (c : Char) : Bool :=
  c.isAlphanum || c = '_' || c = '.' || c = ':' || c = '-'

private def isUnquotedChar (c : Char) : Bool :=
  !(Text.isAsciiBlank c || c = '"' || c = '\'' || c = '=' || c = '>' || c = '<' || c = '\x60')

/-- Whether a character may stand in a tag that begins on a line before, or on the same line. -/
private def mayFollow (multiline : Bool) (c : Char) : Bool := multiline || (c ≠ '\n' && c ≠ '\r')

private def blanksLength (multiline : Bool) (text : List Char) : Nat :=
  (text.takeWhile fun c => Text.isAsciiBlank c && mayFollow multiline c).length

private def valueLength? (multiline : Bool) (text : List Char) : Option Nat :=
  match text with
  | [] => none
  | quote :: rest =>
      if quote = '"' || quote = '\'' then
        let body := rest.takeWhile fun c => c ≠ quote && mayFollow multiline c
        if (rest.drop body.length).head? = some quote then some (body.length + 2) else none
      else
        let body := text.takeWhile isUnquotedChar
        if body.isEmpty then none else some body.length

/-- The length of an attribute: a name, and a value if an equals sign follows. -/
private def attributeLength? (multiline : Bool) (text : List Char) : Option Nat :=
  match text with
  | [] => none
  | c :: rest =>
      if isAttributeStart c then
        let name := 1 + (rest.takeWhile isAttributeChar).length
        let before := blanksLength multiline (text.drop name)
        if (text.drop (name + before)).head? = some '=' then
          let after := blanksLength multiline (text.drop (name + before + 1))
          let value := name + before + 1 + after
          (valueLength? multiline (text.drop value)).map (value + ·)
        else some name
      else none

private def attributesLength? (multiline : Bool) : Nat → List Char → Option Nat
  | 0, _ => none
  | fuel + 1, text =>
      let blanks := blanksLength multiline text
      match text.drop blanks with
      | [] => none
      | c :: rest =>
          if c = '/' || c = '>' then some blanks
          else if blanks = 0 then none
          else
            match attributeLength? multiline (c :: rest) with
            | none => none
            | some length =>
                (attributesLength? multiline fuel (text.drop (blanks + length))).map
                  (blanks + length + ·)

private def tagEnd? (selfClosing : Bool) (text : List Char) : Option Nat :=
  let blanks := (text.takeWhile Text.isLineBlank).length
  match text.drop blanks with
  | '>' :: _ => some (blanks + 1)
  | '/' :: '>' :: _ => if selfClosing then some (blanks + 2) else none
  | _ => none

def tagLength? (multiline : Bool) (text : List Char) : Option Nat :=
  let closing := text.head? = some '/'
  let slash := if closing then 1 else 0
  let body := text.drop slash
  if (body.takeWhile Char.isAlpha).isEmpty then none
  else
    let name := slash + (body.takeWhile isNameChar).length
    if closing then (tagEnd? false (text.drop name)).map (name + ·)
    else
      match attributesLength? multiline (text.length + 1) (text.drop name) with
      | none => none
      | some attributes =>
          (tagEnd? true (text.drop (name + attributes))).map (name + attributes + ·)

def lengthThrough? (close : List Char) : List Char → Option Nat
  | [] => if close.isEmpty then some 0 else none
  | c :: rest =>
      if close.isPrefixOf (c :: rest) then some close.length
      else (lengthThrough? close rest).map (· + 1)

/-- The length of a section of literal data, after the text that opens it: up to its first run of
closing brackets, which a `>` has to follow. -/
private def literalLength? (text : List Char) : Option Nat :=
  let body := (text.takeWhile (· ≠ ']')).length
  let brackets := ((text.drop body).takeWhile (· = ']')).length
  if brackets ≠ 0 && (text.drop (body + brackets)).head? = some '>' then
    some (body + brackets + 1)
  else none

def specialLength? (text : List Char) : Option Nat :=
  match text with
  | '?' :: rest => (lengthThrough? ['?', '>'] rest).map (· + 1)
  | '!' :: '-' :: '-' :: '>' :: _ => some 4
  | '!' :: '-' :: '-' :: '-' :: '>' :: _ => some 5
  | '!' :: '-' :: '-' :: rest => (lengthThrough? ['-', '-', '>'] rest).map (· + 3)
  | '!' :: '[' :: 'C' :: 'D' :: 'A' :: 'T' :: 'A' :: '[' :: rest =>
      (literalLength? rest).map (· + 8)
  | '!' :: c :: rest =>
      if c.isAlpha then (lengthThrough? ['>'] rest).map (· + 2) else none
  | _ => none

/-- The elements whose tags start an HTML block that a blank line ends. -/
def blockElements : List String :=
  ["address", "article", "aside", "base", "basefont", "blockquote", "body", "caption", "center",
    "col", "colgroup", "dd", "details", "dialog", "dir", "div", "dl", "dt", "fieldset",
    "figcaption", "figure", "footer", "form", "frame", "frameset", "h1", "h2", "h3", "h4", "h5",
    "h6", "head", "header", "hr", "html", "iframe", "legend", "li", "link", "main", "menu",
    "menuitem", "nav", "noframes", "ol", "optgroup", "option", "p", "param", "search", "section",
    "summary", "table", "tbody", "td", "tfoot", "th", "thead", "title", "tr", "track", "ul"]

def literalElements : List String := ["pre", "style", "script", "textarea"]

/-- How an HTML block ends: with the line that holds a text, or before a blank line. -/
inductive HtmlEnd where
  | within (close : String)
  | beforeBlank
  deriving DecidableEq, Repr

private def literalElement? (text : List Char) : Option String :=
  literalElements.find? fun element =>
    (text.take element.length).map Char.toLower = element.toList &&
      match text.drop element.length with
      | [] => true
      | c :: _ => Text.isAsciiBlank c || c = '>'

def literalHtmlEnd? (text : List Char) : Option HtmlEnd :=
  match literalElement? text with
  | some element => some (.within ("</" ++ element ++ ">"))
  | none =>
      match text with
      | '!' :: '-' :: '-' :: _ => some (.within "-->")
      | '?' :: _ => some (.within "?>")
      | '!' :: '[' :: 'C' :: 'D' :: 'A' :: 'T' :: 'A' :: '[' :: _ => some (.within "]]>")
      | '!' :: c :: _ => if c.isAlpha then some (.within ">") else none
      | _ => none

def opensBlockElement (text : List Char) : Bool :=
  let body := if text.head? = some '/' then text.drop 1 else text
  let name := body.takeWhile Char.isAlphanum
  blockElements.contains (String.ofList (name.map Char.toLower)) &&
    match body.drop name.length with
    | [] => true
    | '/' :: '>' :: _ => true
    | c :: _ => Text.isBlank c || c = '\n' || c = '\r' || c = '>'

def isLoneTag (text : List Char) : Bool :=
  match tagLength? false text with
  | some length => isBlankLine (text.drop length)
  | none => false

end EditorMarkdown.Source
