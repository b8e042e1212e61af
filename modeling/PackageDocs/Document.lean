import PackageDocs.Name

/-!
# Documents

A document is text cut into tokens. Each token says what it is: plain text, a
keyword, or a link with a target; the bold links are the anchors of the entries, the
other links refer to them.

## Main definitions

- `Role`, `Token`: a piece of text and what it is
- `Token.plain`, `Token.keyword`, `Token.reference`, `Token.anchor`: the tokens that
  signatures are made of
- `Document`: a list of tokens, put together with `++`
- `Document.plain`: the text without the styling
- `Document.size`: its length
-/

namespace PackageDocs

/-- What a token is in the text. -/
inductive Role where
  | plain
  | keyword
  | link
  deriving Repr, DecidableEq

/-- A piece of text, its role, the target of a link, and whether it is bold. -/
structure Token where
  text : Text
  role : Role := .plain
  target : Option Text := none
  bold : Bool := false
  deriving Repr, DecidableEq

namespace Token

/-- Text without a role of its own. -/
def plain (text : Text) : Token :=
  { text }

/-- Punctuation or a keyword. -/
def keyword (text : Text) : Token :=
  { text, role := .keyword }

/-- A mention of the documented type `name`, leading to its anchor. -/
def reference (name : Text) : Token :=
  { text := name, role := .link, target := some (Name.anchor name) }

/-- The place where the entry `name` is documented. -/
def anchor (name : Text) : Token :=
  { text := Name.display name, role := .link, target := some (Name.anchor name), bold := true }

end Token

/-- Tokens in the order of their text. -/
abbrev Document := List Token

namespace Document

/-- The text without its styling. -/
def plain (d : Document) : Text :=
  d.flatMap Token.text

/-- The number of characters of the text. -/
def size : Document → Nat
  | [] => 0
  | token :: rest => token.text.length + size rest

/-- The size is the length of the text. -/
theorem size_eq_length_plain (d : Document) : d.size = d.plain.length := by
  induction d with
  | nil => rfl
  | cons token rest ih =>
    rw [size, ih]
    simp [plain]

/-- The texts of two documents follow each other as the documents do. -/
theorem plain_append (d e : Document) : plain (d ++ e) = plain d ++ plain e := by
  simp [plain]

end Document

end PackageDocs
