import TemplateCompiler.Markup.Document
import TemplateCompiler.Markup.Names
import TemplateCompiler.Markup.RawTag
import TemplateCompiler.Markup.Token
/-!
# From tokens to documents

A document is the tree that its tags spell out: every element is closed by an end tag of its own, unless it is
void or closes itself, and no element is opened or closed that is not written. The first fault, of the tokens or
of their nesting, is the only one reported.
-/

namespace TemplateCompiler.Markup

open TemplateCompiler.Text

/-- What is wrong with markup. -/
inductive MarkupFault where
  | token (fault : Fault)
  | voidEnd (name : String)
  | closedTooEarly (name innermost : String)
  | notOpen (name innermost : String)
  | nothingOpen (name : String)
  | neverClosed (tag : String)
deriving DecidableEq, Repr

/-- The message for the author of the markup. -/
def MarkupFault.message : MarkupFault → String
  | .token fault => fault.message
  | .voidEnd name => "</" ++ name ++ "> is not allowed: <" ++ name ++ "> is a void element"
  | .closedTooEarly name innermost => "<" ++ innermost ++ "> must be closed before </" ++ name ++ ">"
  | .notOpen name innermost => "unexpected </" ++ name ++ ">: the open element is <" ++ innermost ++ ">"
  | .nothingOpen name => "unexpected </" ++ name ++ "> with no open element"
  | .neverClosed tag => "<" ++ tag ++ "> is never closed"

/-- A fault and where it is reported. -/
structure MarkupError where
  fault : MarkupFault
  position : Position
deriving DecidableEq, Repr

/-- Why the reading of a document ends early. -/
inductive ReadError where
  | malformed (error : MarkupError)
  /-- The raw text of a tag would start inside a character, at the byte `offset`, where no text can be cut. -/
  | splitCharacter (offset : Nat)
deriving DecidableEq, Repr

/-- An element whose end tag has not been met, with the nodes read so far, newest first. -/
structure OpenElement where
  element : Element
  children : List Node

/-- A document that is being put together. -/
structure Assembly where
  /-- The place behind the last tag, comment or document type. -/
  cursor : Cursor
  /-- The open elements, innermost first. -/
  opened : List OpenElement
  /-- The nodes outside of all elements, newest first. -/
  roots : List Node
  /-- The characters read since the last node, and where they start. -/
  pending : Option (String × Position)

namespace Assembly

/-- The assembly before the first token. -/
def initial (source : List Char) : Assembly :=
  ⟨.start source, [], [], none⟩

/-- A node added to the innermost open element. -/
def attach (a : Assembly) (node : Node) : Assembly :=
  match a.opened with
  | innermost :: outer => { a with opened := { innermost with children := node :: innermost.children } :: outer }
  | [] => { a with roots := node :: a.roots }

/-- The pending characters made into a text. -/
def flush (a : Assembly) : Assembly :=
  match a.pending with
  | some (text, position) => { a with pending := none }.attach (.text text position)
  | none => a

/-- Whether an `svg` element is open. -/
def inSvg (a : Assembly) : Bool :=
  a.opened.any (·.element.tag == "svg")

/-- The first of the raw attributes that has the given name, and the others. -/
def takeRaw (name : String) : List RawAttribute → Option RawAttribute × List RawAttribute
  | [] => (none, [])
  | raw :: rest =>
    if raw.name = name then (some raw, rest)
    else
      let (found, others) := takeRaw name rest
      (found, raw :: others)

/-- Whether the value of an attribute is a binding without quotes that the slash of the tag has run into. -/
def endsInSlash (quoted : Bool) (value : String) : Bool :=
  !quoted && value.toList.head? == some '{' && "\x7d/".toList.isSuffixOf value.toList

/-- The attributes of a document, given those of a tag that starts at `start` and what its raw text shows of
them; and whether the slash of the tag has run into one of them. -/
def attributes (source : List Char) (svg : Bool) (start : Nat) :
    List TagAttribute → List RawAttribute → List Attribute × Bool
  | [], _ => ([], false)
  | a :: rest, raws =>
    let (raw, raws) := takeRaw a.name raws
    let (hasValue, quoted, offset) :=
      match raw with
      | some raw => (raw.hasValue, raw.quoted, raw.offset)
      | none => (!a.value.isEmpty, false, start)
    let slash := endsInSlash quoted a.value
    let value := if slash then String.ofList a.value.toList.dropLast else a.value
    let name := if svg then spelling svgAttributeNames a.name else a.name
    let (others, otherSlash) := attributes source svg start rest raws
    (⟨name, value, hasValue, quoted, locate source offset⟩ :: others, slash || otherSlash)

/-- Where a start tag is found again in the source: its first character, and the place behind it. -/
def tagPlace (a : Assembly) (tag : Tag) : Cursor × Cursor :=
  let start := a.cursor.find ("<" ++ tag.name)
  (start, start.closeTag)

/-- The element of a start tag that is found from `start` on, given what its raw text shows of its attributes. -/
def elementOf (source : List Char) (svg : Bool) (start : Cursor) (tag : Tag) (raws : List RawAttribute) : Element :=
  let (attributes, slash) := attributes source svg start.offset tag.attributes raws
  { tag := if svg then spelling svgElementNames tag.name else tag.name
    attributes := attributes
    selfClosing := tag.selfClosing || slash
    position := locate source start.offset }

/-- An element of the name `name` entered: it is attached if it has no content, and opened otherwise. -/
def enter (a : Assembly) (name : String) (element : Element) : Assembly :=
  if element.selfClosing || isVoidElement name then a.attach (.element element [])
  else { a with opened := ⟨element, []⟩ :: a.opened }

/-- A start tag read. -/
def startTag (source : List Char) (a : Assembly) (tag : Tag) : Except ReadError Assembly :=
  let (start, stop) := a.tagPlace tag
  let svg := tag.name == "svg" || a.inSvg
  match scanTag start stop tag.name.utf8ByteSize with
  | none => .error (.splitCharacter (bodyStart start.offset stop.offset tag.name.utf8ByteSize))
  | some raws => .ok ({ a with cursor := stop }.enter tag.name (elementOf source svg start tag raws))

/-- An end tag read: it closes the innermost open element, which must have its name. -/
def endTag (source : List Char) (a : Assembly) (tag : Tag) : Except MarkupError Assembly :=
  let start := a.cursor.find ("</" ++ tag.name)
  let position := locate source start.offset
  let a := { a with cursor := start.closeTag }
  if isVoidElement tag.name then .error ⟨.voidEnd tag.name, position⟩
  else
    match a.opened with
    | [] => .error ⟨.nothingOpen tag.name, position⟩
    | innermost :: outer =>
      if sameName innermost.element.tag tag.name then
        .ok ({ a with opened := outer }.attach (.element innermost.element innermost.children.reverse))
      else if outer.any (sameName ·.element.tag tag.name) then
        .error ⟨.closedTooEarly tag.name innermost.element.tag, position⟩
      else .error ⟨.notOpen tag.name innermost.element.tag, position⟩

/-- A comment read. -/
def comment (source : List Char) (a : Assembly) (text : String) : Assembly :=
  let start := a.cursor.find "<!--"
  { a with cursor := start.closeComment }.attach (.comment text (locate source start.offset))

/-- A character read. -/
def character (source : List Char) (a : Assembly) (c : Char) : Assembly :=
  match a.pending with
  | some (text, position) => { a with pending := some (text.push c, position) }
  | none => { a with pending := some (c.toString, locate source a.cursor.offset) }

/-- A token read. -/
def step (source : List Char) (a : Assembly) (token : Token) : Except ReadError Assembly :=
  match token with
  | .character c => .ok (a.character source c)
  | .tag tag =>
    if tag.closing then (a.flush.endTag source tag).mapError .malformed else a.flush.startTag source tag
  | .comment text => .ok (a.flush.comment source text)
  | .doctype => .ok { a with cursor := (a.cursor.find "<!").closeTag }

/-- The document, once the tokens have ended, with the fault that ended them if there was one. -/
def finish (source : List Char) (a : Assembly) (fault : Option Fault) : Except MarkupError (List Node) :=
  match fault with
  | some fault => .error ⟨.token fault, locate source a.cursor.offset⟩
  | none =>
    let a := a.flush
    match a.opened with
    | innermost :: _ => .error ⟨.neverClosed innermost.element.tag, innermost.element.position⟩
    | [] => .ok a.roots.reverse

end Assembly

/-- The document that a source text denotes. -/
def parse (source : List Char) : Except ReadError (List Node) := do
  let scan := tokenize source
  let a ← scan.tokens.foldlM (Assembly.step source) (Assembly.initial source)
  (a.finish source scan.fault).mapError .malformed

end TemplateCompiler.Markup
