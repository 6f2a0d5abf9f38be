/-!
# Markup/Error — what can be wrong with a document

`ReferenceError` holds the faults of character and entity references, `SyntaxError` those of
unfinished or misplaced markup, and `MarkupError` both. Each has its wording in `message`.
-/

namespace FixedWidth.Markup

/-- A fault of a reference. Ranges are byte ranges of the text that holds it. -/
inductive ReferenceError where
  /-- No semicolon before the next ampersand or the end. -/
  | unterminated (start stop : Nat)
  /-- A name other than the five predefined ones. -/
  | unrecognized (start stop : Nat) (name : String)
  /-- A number with a sign. -/
  | signed
  /-- No digits. -/
  | noDigits
  /-- A character that is no digit of the base. -/
  | invalidDigit
  /-- A number of more than 32 bits. -/
  | tooLarge
  /-- The code point zero. -/
  | zero
  /-- A number that is no code point of a character. -/
  | notACharacter (code : Nat)
  deriving DecidableEq, Repr

/-- The wording of a fault. -/
def ReferenceError.message : ReferenceError → String
  | unterminated start stop =>
    s!"Error while escaping character at range {start}..{stop}: Cannot find ';' after '&'"
  | unrecognized start stop name => s!"at {start}..{stop}: unrecognized entity `{name}`"
  | signed => "invalid character reference: unexpected number sign"
  | noDigits => "invalid character reference: cannot parse integer from empty string"
  | invalidDigit => "invalid character reference: invalid digit found in string"
  | tooLarge => "invalid character reference: number too large to fit in target type"
  | zero => "invalid character reference: 0x0 character is not permitted in XML"
  | notACharacter code => s!"invalid character reference: `{code}` is not a valid codepoint"

/-- A fault of the markup around names and texts. -/
inductive SyntaxError where
  /-- The input ends inside a tag. -/
  | tagNotClosed
  /-- The input ends inside a quoted value of a tag. -/
  | valueNotClosed (quote : Char)
  /-- An exclamation mark with nothing known behind it. -/
  | unknownMarkup
  /-- A comment without its end, or without its whole beginning. -/
  | commentNotClosed
  /-- Literal character data without its end, or without its whole beginning. -/
  | characterDataNotClosed
  /-- A document type declaration without its end, or without its whole beginning. -/
  | doctypeNotClosed
  /-- A document type declaration with nothing but blanks in it. -/
  | doctypeWithoutName
  /-- A processing instruction without its end. -/
  | instructionNotClosed
  /-- The declaration of the document without its end. -/
  | declarationNotClosed
  /-- An ampersand without its semicolon. -/
  | referenceNotClosed
  /-- An end tag with another name than the innermost open element. -/
  | endMismatch (expected found : String)
  /-- An end tag where no element is open. -/
  | endWithoutStart (found : String)
  deriving DecidableEq, Repr

/-- The wording of a fault. -/
def SyntaxError.message : SyntaxError → String
  | tagNotClosed => "syntax error: tag not closed: `>` not found before end of input"
  | valueNotClosed quote =>
    s!"syntax error: attribute value not closed: `{quote}` not found before end of input"
  | unknownMarkup => "syntax error: unknown or missed symbol in markup"
  | commentNotClosed => "syntax error: comment not closed: `-->` not found before end of input"
  | characterDataNotClosed =>
    "syntax error: CDATA not closed: `]]>` not found before end of input"
  | doctypeNotClosed => "syntax error: DOCTYPE not closed: `>` not found before end of input"
  | doctypeWithoutName =>
    "ill-formed document: `<!DOCTYPE>` declaration does not contain a name of a document type"
  | instructionNotClosed =>
    "syntax error: processing instruction not closed: `?>` not found before end of input"
  | declarationNotClosed =>
    "syntax error: XML declaration not closed: `?>` not found before end of input"
  | referenceNotClosed =>
    "ill-formed document: entity or character reference not closed: `;` not found before end "
      ++ "of input"
  | endMismatch expected found =>
    s!"ill-formed document: expected `</{expected}>`, but `</{found}>` was found"
  | endWithoutStart found =>
    s!"ill-formed document: close tag `</{found}>` does not match any open tag"

/-- A fault of a document. -/
inductive MarkupError where
  /-- The markup is at fault. -/
  | markup (cause : SyntaxError)
  /-- A reference is at fault. -/
  | reference (cause : ReferenceError)
  deriving DecidableEq, Repr

/-- The wording of a fault. -/
def MarkupError.message : MarkupError → String
  | markup cause => cause.message
  | reference cause => cause.message

end FixedWidth.Markup
