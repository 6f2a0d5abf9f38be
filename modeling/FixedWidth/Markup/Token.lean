import FixedWidth.Markup.Attribute
import FixedWidth.Markup.Error
import FixedWidth.Text.Bytes
import FixedWidth.Unicode.Blank

/-!
# Markup/Token — the pieces of a document

A document is a sequence of texts, references, tags and markup without meaning here (comments,
instructions, document types). `Token.next` cuts the first piece off a text, and `scan` cuts a
whole text into pieces up to its first fault, each with the byte offset of its first character.
-/

namespace FixedWidth.Markup

open Text (byteLength splitAt?)

/-- A piece of a document. -/
inductive Token where
  /-- Characters between markup. -/
  | text (content : List Char)
  /-- Literal character data. -/
  | characterData (content : List Char)
  /-- A reference with its text between `&` and `;`. -/
  | reference (name : List Char)
  /-- A start tag: its text between the angle brackets. -/
  | startTag (content : List Char)
  /-- A start tag that is its own end tag, without the slash. -/
  | emptyTag (content : List Char)
  /-- An end tag with its name. -/
  | endTag (name : List Char)
  /-- Markup without meaning. -/
  | ignored
  deriving DecidableEq, Repr

/-- The name at the beginning of a tag. -/
def tagName (content : List Char) : List Char := content.takeWhile fun c => !isMarkupBlank c

/-- The attributes behind the name of a tag. -/
def tagAttributes (content : List Char) : List Attribute := attributes (dropWord content)

/-- The name of an end tag: blanks behind it go, unless there is nothing else. -/
def endName (content : List Char) : List Char :=
  if content.all isMarkupBlank then content else Unicode.dropEndWhile isMarkupBlank content

/-! ## Tags -/

/-- The text of a tag up to its closing bracket, and the text behind that. Brackets in quotes do
not close a tag; `quote` is the quote that is open. -/
def closeTag : (quote : Option Char) → List Char → Except SyntaxError (List Char × List Char)
  | none, [] => .error .tagNotClosed
  | some quote, [] => .error (.valueNotClosed quote)
  | none, c :: rest =>
    if c = '>' then .ok ([], rest)
    else do
      let quote := if c = '"' || c = '\'' then some c else none
      let (content, after) ← closeTag quote rest
      return (c :: content, after)
  | some quote, c :: rest => do
    let (content, after) ← closeTag (if c = quote then none else some quote) rest
    return (c :: content, after)

/-- The tag with this text between its brackets. -/
def Token.ofTag : List Char → Token
  | '/' :: name => .endTag (endName name)
  | content =>
    if content.getLast? = some '/' then .emptyTag content.dropLast else .startTag content

/-! ## Markup without meaning -/

/-- The text behind the closing bracket of a declaration. Brackets in quotes do not close it. -/
def closeDeclaration : (quote : Option Char) → List Char → Option (List Char)
  | _, [] => none
  | none, c :: rest =>
    if c = '>' then some rest
    else closeDeclaration (if c = '"' || c = '\'' then some c else none) rest
  | some quote, c :: rest => closeDeclaration (if c = quote then none else some quote) rest

/-- The text behind the first occurrence of a pattern. -/
def after? (pattern cs : List Char) : Option (List Char) := (splitAt? pattern cs).map Prod.snd

/-- The declarations whose brackets may stand in quotes. -/
def quotedDeclarations : List (List Char) :=
  ["!ENTITY".toList, "!ATTLIST".toList, "!NOTATION".toList]

/-- The text behind the markup that begins with an angle bracket before `cs`, inside a document
type. -/
def closeSubsetMarkup (cs : List Char) : Option (List Char) :=
  if "!--".toList.isPrefixOf cs then after? "-->".toList (cs.drop 3)
  else if "?".toList.isPrefixOf cs then after? "?>".toList (cs.drop 1)
  else if quotedDeclarations.any (·.isPrefixOf cs) then closeDeclaration none cs
  else after? ['>'] cs

/-- The text behind the bracket that ends the internal part of a document type. Each step reads
at least one character, so the length of the text is enough `fuel`. -/
def closeSubset : (fuel : Nat) → List Char → Option (List Char)
  | 0, _ => none
  | _ + 1, [] => none
  | fuel + 1, c :: rest =>
    if c = ']' then some rest
    else if c = '<' then (closeSubsetMarkup rest).bind (closeSubset fuel)
    else closeSubset fuel rest

/-- The text behind a document type. Quoted texts before the internal part are passed over;
`quote` is the quote that is open. -/
def closeDoctype : (quote : Option Char) → List Char → Option (List Char)
  | _, [] => none
  | none, c :: rest =>
    if c = '>' then some rest
    else if c = '[' then (closeSubset rest.length rest).bind (after? ['>'])
    else closeDoctype (if c = '"' || c = '\'' then some c else none) rest
  | some quote, c :: rest => closeDoctype (if c = quote then none else some quote) rest

/-- Whether two texts are equal up to the case of ASCII letters. -/
def sameWord (a b : List Char) : Bool := a.map Char.toLower == b.map Char.toLower

/-- A document type, from behind its exclamation mark on. It must begin with its keyword and have
something other than blanks behind it. -/
def scanDoctype (cs : List Char) : Except SyntaxError (Token × List Char) :=
  match closeDoctype none cs with
  | none => .error .doctypeNotClosed
  | some after =>
    let content := cs.take (cs.length - after.length - 1)
    if !sameWord (content.take 7) "DOCTYPE".toList then .error .doctypeNotClosed
    else if (content.drop 7).all isMarkupBlank then .error .doctypeWithoutName
    else .ok (.ignored, after)

/-- Markup from behind its exclamation mark on. -/
def scanBang : List Char → Except SyntaxError (Token × List Char)
  | '-' :: '-' :: body =>
    match after? "-->".toList body with
    | some after => .ok (.ignored, after)
    | none => .error .commentNotClosed
  | '-' :: _ => .error .commentNotClosed
  | '[' :: rest =>
    if "CDATA[".toList.isPrefixOf rest then
      match splitAt? "]]>".toList (rest.drop 6) with
      | some (content, after) => .ok (.characterData content, after)
      | none => .error .characterDataNotClosed
    else .error .characterDataNotClosed
  | 'D' :: rest => scanDoctype ('D' :: rest)
  | 'd' :: rest => scanDoctype ('d' :: rest)
  | _ => .error .unknownMarkup

/-- Whether an instruction is the declaration of the document: the name `xml`, alone. -/
def isDeclaration (cs : List Char) : Bool :=
  "xml".toList.isPrefixOf cs &&
    match cs.drop 3 with
    | [] => true
    | c :: _ => isMarkupBlank c || c == '?'

/-- An instruction from behind its question mark on. -/
def scanInstruction (cs : List Char) : Except SyntaxError (Token × List Char) :=
  if cs.head? = some '>' then .error .instructionNotClosed
  else
    match after? "?>".toList cs with
    | some after => .ok (.ignored, after)
    | none => .error (if isDeclaration cs then .declarationNotClosed else .instructionNotClosed)

/-! ## Pieces -/

/-- A reference from behind its ampersand on: its semicolon comes before any other ampersand or
angle bracket. -/
def scanReference (cs : List Char) : Except SyntaxError (Token × List Char) :=
  let inside (c : Char) : Bool := c != ';' && c != '&' && c != '<'
  match cs.dropWhile inside with
  | ';' :: after => .ok (.reference (cs.takeWhile inside), after)
  | _ => .error .referenceNotClosed

/-- Markup from behind its opening bracket on. -/
def scanMarkup : List Char → Except SyntaxError (Token × List Char)
  | '!' :: rest => scanBang rest
  | '?' :: rest => scanInstruction rest
  | cs => do
    let (content, after) ← closeTag none cs
    return (.ofTag content, after)

/-- The first piece of a text, and the text behind it. -/
def Token.next : List Char → Except SyntaxError (Token × List Char)
  | '<' :: rest => scanMarkup rest
  | '&' :: rest => scanReference rest
  | cs =>
    let plain (c : Char) : Bool := c != '<' && c != '&'
    .ok (.text (cs.takeWhile plain), cs.dropWhile plain)

/-- The pieces of a text up to its first fault. -/
structure Scan where
  /-- Each piece with the byte offset of its first character. -/
  tokens : List (Nat × Token)
  /-- What is wrong behind the last piece. -/
  fault : Option SyntaxError
  deriving DecidableEq, Repr

/-- The pieces of the end of a text of `total` bytes. Each piece has at least one character, so the
length of the end is enough `fuel`. -/
def scanFrom (total : Nat) : (fuel : Nat) → List Char → Scan
  | 0, _ => ⟨[], none⟩
  | _ + 1, [] => ⟨[], none⟩
  | fuel + 1, c :: cs =>
    match Token.next (c :: cs) with
    | .error fault => ⟨[], some fault⟩
    | .ok (token, rest) =>
      let more := scanFrom total fuel rest
      ⟨(total - byteLength (c :: cs), token) :: more.tokens, more.fault⟩

/-- The pieces of a text. -/
def scan (cs : List Char) : Scan := scanFrom (byteLength cs) cs.length cs

end FixedWidth.Markup
