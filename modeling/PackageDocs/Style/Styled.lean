import PackageDocs.Document
import PackageDocs.Style.Language

/-!
# Styled text

Styled text is text with spans that carry styles. A document becomes styled text by
giving each token the style of its role.

## Main definitions

- `StyledSpan`, `StyledText`: text and the styles on it
- `StyledText.append`: more text in a style
- `StyleSheet`: the styles of the roles, as they are written
- `Token.style`: the style of a token
- `StyledText.ofDocument`: a document in its styles

## Design notes

The bell, the backspace, the vertical tab, the form feed and the carriage return
would move the cursor; they are dropped from the text. Offsets count what is left,
so a span can be empty. The style of a token is read even if the token is empty.
-/

namespace PackageDocs

/-- A stretch of text in one style, from offset `start` up to offset `stop`. -/
structure StyledSpan (σ : Type) where
  start : Nat
  stop : Nat
  style : σ
  deriving Repr, DecidableEq

/-- Text with styles on parts of it. -/
structure StyledText (σ : Type) where
  text : Text := []
  spans : List (StyledSpan σ) := []
  deriving Repr, DecidableEq

variable {σ : Type}

namespace StyledText

/-- The characters that may stand in styled text. -/
def isKept (c : Char) : Bool :=
  !(c == '\x07' || c == '\x08' || c == '\x0b' || c == '\x0c' || c == '\x0d')

/-- The text as it is kept in styled text. -/
def kept (t : Text) : Text :=
  t.filter isKept

/-- More text at the end, with a span for it in the given style. -/
def push (styled : StyledText σ) (t : Text) (style : σ) : StyledText σ :=
  let stop := styled.text.length + (kept t).length
  { text := styled.text ++ kept t
    spans := styled.spans ++ [{ start := styled.text.length, stop, style }] }

/-- More text at the end. Empty text adds nothing, and a style that sets nothing needs
no span. -/
def append (styles : StyleLanguage σ) (styled : StyledText σ) (t : Text) (style : σ) :
    StyledText σ :=
  if t.isEmpty then styled
  else if styles.isNull style then { styled with text := styled.text ++ kept t }
  else styled.push t style

end StyledText

/-- The styles of keywords, of references and of the names at anchors, as they are
written. -/
structure StyleSheet where
  keyword : Text := "grey50".toList
  link : Text := "cyan".toList
  name : Text := "bold".toList
  deriving Repr, DecidableEq

/-- The style of a token: that of its role. A plain token is bold or in no style. -/
def Token.style (styles : StyleLanguage σ) (sheet : StyleSheet) (token : Token) :
    Except MalformedStyle σ :=
  match token.role with
  | .plain => .ok (styles.plain token.bold)
  | .keyword => styles.read sheet.keyword
  | .link => do
    let style ← styles.read (if token.bold then sheet.name else sheet.link)
    return styles.linkedTo style token.target

namespace StyledText

/-- The styled text, the tokens following in their styles. -/
def appendTokens (styles : StyleLanguage σ) (sheet : StyleSheet) (styled : StyledText σ) :
    Document → Except MalformedStyle (StyledText σ)
  | [] => .ok styled
  | token :: rest => do
    let style ← token.style styles sheet
    (styled.append styles token.text style).appendTokens styles sheet rest

/-- The document in the styles of the sheet. -/
def ofDocument (styles : StyleLanguage σ) (sheet : StyleSheet) (d : Document) :
    Except MalformedStyle (StyledText σ) :=
  appendTokens styles sheet {} d

end StyledText

end PackageDocs
