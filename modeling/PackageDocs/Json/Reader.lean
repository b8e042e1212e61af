import PackageDocs.Json.Lexeme

/-!
# Reading a data file

The lexemes of a file are read one after the other. What has been read so far is a
stack of the lists and objects that are still open, and a mode that says what may
come next; a lexeme that may not come next makes the file unreadable.

## Main definitions

- `Json.Open`: a list or object whose end has not been read
- `Json.Reading`: what has been read, and what may come next
- `Json.Reading.next?`: one more lexeme
- `Json.read?`: the value of a whole file
-/

namespace PackageDocs

namespace Json

/-- A list or an object whose end has not been read, with its parts so far. An object
is held with the key whose value comes next. -/
inductive Open where
  | list (items : List Json)
  | object (fields : List Field) (key : Text)
  deriving Repr

/-- What may come next, with the brackets that are open, the innermost first. -/
inductive Reading where
  /-- A value. -/
  | value (outer : List Open)
  /-- The first item of a list, or its end. -/
  | firstItem (outer : List Open)
  /-- The first key of an object, or its end. -/
  | firstKey (outer : List Open)
  /-- A key behind a comma. -/
  | key (fields : List Field) (outer : List Open)
  /-- The colon behind a key. -/
  | colon (fields : List Field) (key : Text) (outer : List Open)
  /-- A comma or an end behind this value. -/
  | behind (value : Json) (outer : List Open)
  deriving Repr

namespace Reading

/-- A lexeme at a place for a value. -/
def startValue? (outer : List Open) : Lexeme → Option Reading
  | .scalar v => some (.behind v outer)
  | .text text => some (.behind (.str text) outer)
  | .openList => some (.firstItem outer)
  | .openObject => some (.firstKey outer)
  | _ => none

/-- One more lexeme, if it may come next. -/
def next? : Reading → Lexeme → Option Reading
  | .value outer, lexeme => startValue? outer lexeme
  | .firstItem outer, .closeList => some (.behind (.arr []) outer)
  | .firstItem outer, lexeme => startValue? (.list [] :: outer) lexeme
  | .firstKey outer, .closeObject => some (.behind (.obj []) outer)
  | .firstKey outer, .text k => some (.colon [] k outer)
  | .key fields outer, .text k => some (.colon fields k outer)
  | .colon fields k outer, .colon => some (.value (.object fields k :: outer))
  | .behind v (.list items :: outer), .comma =>
    some (.value (.list (items ++ [v]) :: outer))
  | .behind v (.list items :: outer), .closeList =>
    some (.behind (.arr (items ++ [v])) outer)
  | .behind v (.object fields k :: outer), .comma =>
    some (.key (putField k v fields) outer)
  | .behind v (.object fields k :: outer), .closeObject =>
    some (.behind (.obj (putField k v fields)) outer)
  | _, _ => none

/-- All the lexemes, each where it may come. -/
def run? (reading : Reading) : List Lexeme → Option Reading
  | [] => some reading
  | lexeme :: rest => (reading.next? lexeme).bind fun later => later.run? rest

/-- The value, once nothing is open around it. -/
def result? : Reading → Option Json
  | .behind v [] => some v
  | _ => none

end Reading

/-- The value that a sequence of lexemes writes. -/
def ofLexemes? (lexemes : List Lexeme) : Option Json :=
  ((Reading.value []).run? lexemes).bind Reading.result?

/-- The value that a file holds, if it is well formed. -/
def read? (t : Text) : Option Json :=
  (lexemes? t).bind ofLexemes?

end Json

end PackageDocs
