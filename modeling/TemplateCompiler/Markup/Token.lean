import TemplateCompiler.Markup.CharacterReference
import TemplateCompiler.Text.Bytes
/-!
# Markup tokens

`tokenize` cuts markup into characters, tags, comments and document types by the tokenization rules of HTML,
up to the first fault. No element changes the rules, so that the content of every element is markup. Tags and
attributes carry the byte offsets at which they are written.
-/

namespace TemplateCompiler.Markup

open TemplateCompiler.Text

/-- An attribute of a tag. -/
structure TagAttribute where
  name : String
  value : String
  /-- Where the name starts. -/
  start : Nat
  /-- A value is written after the name. -/
  hasValue : Bool
  /-- The value is written in quotes. -/
  quoted : Bool
deriving DecidableEq, Repr

/-- A tag. While it is read its attributes stand newest first. -/
structure Tag where
  closing : Bool
  name : String
  attributes : List TagAttribute
  selfClosing : Bool
  /-- Where the tag starts. -/
  start : Nat
  /-- Where the tag has ended. -/
  stop : Nat
deriving DecidableEq, Repr

/-- A token. -/
inductive Token where
  | character (c : Char)
  | tag (tag : Tag)
  | comment (text : String)
  | doctype
deriving DecidableEq, Repr

/-! ## States and faults -/

/-- How an attribute value is delimited. -/
inductive Quoting where
  | double
  | single
  | unquoted
deriving DecidableEq, Repr

/-- The two identifiers of a document type. -/
inductive Identifier where
  | publicId
  | systemId
deriving DecidableEq, Repr

/-- Where a scan through markup stands. -/
inductive State where
  | data
  | tagOpen
  | endTagOpen
  | tagName (tag : Tag)
  | beforeAttributeName (tag : Tag)
  | attributeName (tag : Tag)
  | afterAttributeName (tag : Tag)
  | beforeAttributeValue (tag : Tag)
  | attributeValue (quoting : Quoting) (tag : Tag)
  | afterAttributeValueQuoted (tag : Tag)
  | selfClosingStartTag (tag : Tag)
  | markupDeclarationOpen
  | commentStart
  | commentStartDash
  | comment (text : String)
  | commentLessThan (text : String)
  | commentLessThanBang (text : String)
  | commentLessThanBangDash (text : String)
  | commentLessThanBangDashDash (text : String)
  | commentEndDash (text : String)
  | commentEnd (text : String)
  | commentEndBang (text : String)
  | doctype
  | beforeDoctypeName
  | doctypeName
  | afterDoctypeName
  | afterDoctypeKeyword (identifier : Identifier)
  | beforeDoctypeIdentifier (identifier : Identifier)
  | doctypeIdentifier (quoting : Quoting) (identifier : Identifier)
  | afterDoctypeIdentifier (identifier : Identifier)
  | betweenDoctypeIdentifiers
deriving DecidableEq, Repr

/-- The name of the identifier in messages. -/
def Identifier.label : Identifier → String
  | .publicId => "Public"
  | .systemId => "System"

/-- The name of the delimiter in messages. -/
def Quoting.label : Quoting → String
  | .double => "DoubleQuoted"
  | .single => "SingleQuoted"
  | .unquoted => "Unquoted"

/-- The name of a state in messages. -/
def State.label : State → String
  | .data => "Data"
  | .tagOpen => "TagOpen"
  | .endTagOpen => "EndTagOpen"
  | .tagName _ => "TagName"
  | .beforeAttributeName _ => "BeforeAttributeName"
  | .attributeName _ => "AttributeName"
  | .afterAttributeName _ => "AfterAttributeName"
  | .beforeAttributeValue _ => "BeforeAttributeValue"
  | .attributeValue quoting _ => "AttributeValue(" ++ quoting.label ++ ")"
  | .afterAttributeValueQuoted _ => "AfterAttributeValueQuoted"
  | .selfClosingStartTag _ => "SelfClosingStartTag"
  | .markupDeclarationOpen => "MarkupDeclarationOpen"
  | .commentStart => "CommentStart"
  | .commentStartDash => "CommentStartDash"
  | .comment _ => "Comment"
  | .commentLessThan _ => "CommentLessThanSign"
  | .commentLessThanBang _ => "CommentLessThanSignBang"
  | .commentLessThanBangDash _ => "CommentLessThanSignBangDash"
  | .commentLessThanBangDashDash _ => "CommentLessThanSignBangDashDash"
  | .commentEndDash _ => "CommentEndDash"
  | .commentEnd _ => "CommentEnd"
  | .commentEndBang _ => "CommentEndBang"
  | .doctype => "Doctype"
  | .beforeDoctypeName => "BeforeDoctypeName"
  | .doctypeName => "DoctypeName"
  | .afterDoctypeName => "AfterDoctypeName"
  | .afterDoctypeKeyword identifier => "AfterDoctypeKeyword(" ++ identifier.label ++ ")"
  | .beforeDoctypeIdentifier identifier => "BeforeDoctypeIdentifier(" ++ identifier.label ++ ")"
  | .doctypeIdentifier quoting identifier =>
    "DoctypeIdentifier" ++ quoting.label ++ "(" ++ identifier.label ++ ")"
  | .afterDoctypeIdentifier identifier => "AfterDoctypeIdentifier(" ++ identifier.label ++ ")"
  | .betweenDoctypeIdentifiers => "BetweenDoctypePublicAndSystemIdentifiers"

/-- What is wrong with markup as a sequence of characters. -/
inductive Fault where
  | unexpected (c : Char) (state : State)
  | unexpectedEnd (state : State)
  | forbidden (c : Char)
  | reference (fault : ReferenceFault)
  | duplicateAttribute
  | closingAttributes
  | closingSelfClosing
deriving DecidableEq, Repr

/-- The message for the author of the markup. -/
def Fault.message : Fault → String
  | .unexpected c state => "Saw " ++ c.toString ++ " in state " ++ state.label
  | .unexpectedEnd state => "Saw EOF in state " ++ state.label
  | .forbidden c => "Bad character " ++ c.toString
  | .reference fault => fault.message
  | .duplicateAttribute => "Duplicate attribute"
  | .closingAttributes => "Attributes on an end tag"
  | .closingSelfClosing => "Self-closing end tag"

/-! ## Steps -/

/-- What a character does to a scan: it hands out tokens and goes on, skipping `size` further characters, or
it is a fault. -/
inductive Step where
  | go (state : State) (tokens : List Token) (size : Nat)
  | fault (fault : Fault)

/-- Goes on in `state` without handing out a token. -/
def Step.to (state : State) : Step :=
  .go state [] 0

/-- A blank between the parts of a tag. -/
def isTagBlank (c : Char) : Bool :=
  c == '\t' || c == '\n' || c.toNat == 12 || c == ' '

/-- Whether the newest attribute repeats the name of an older one. -/
def Tag.repeatsAttribute (tag : Tag) : Bool :=
  match tag.attributes with
  | a :: older => older.any (·.name == a.name)
  | [] => false

/-- Starts an attribute of `tag` with the character `c` at the byte `pos`. -/
def startAttribute (tag : Tag) (pos : Nat) (c : Char) : Step :=
  if tag.repeatsAttribute then .fault .duplicateAttribute
  else
    .to (.attributeName { tag with
      attributes := ⟨c.toLower.toString, "", pos, false, false⟩ :: tag.attributes })

/-- Hands out `tag`, whose last character stands at the byte `pos`. -/
def endTag (tag : Tag) (pos : Nat) : Step :=
  if tag.repeatsAttribute then .fault .duplicateAttribute
  else if tag.closing && !tag.attributes.isEmpty then .fault .closingAttributes
  else if tag.closing && tag.selfClosing then .fault .closingSelfClosing
  else .go .data [.tag { tag with attributes := tag.attributes.reverse, stop := pos + 1 }] 0

/-- The newest attribute changed by `f`. -/
def Tag.mapNewest (tag : Tag) (f : TagAttribute → TagAttribute) : Tag :=
  match tag.attributes with
  | a :: older => { tag with attributes := f a :: older }
  | [] => tag

/-- A character added to the name of the newest attribute. -/
def Tag.pushName (tag : Tag) (c : Char) : Tag :=
  tag.mapNewest fun a => { a with name := a.name.push c.toLower }

/-- Characters added to the value of the newest attribute. -/
def Tag.pushValue (tag : Tag) (cs : List Char) : Tag :=
  tag.mapNewest fun a => { a with value := a.value ++ String.ofList cs }

/-- The newest attribute marked as having a value. -/
def Tag.openValue (tag : Tag) (quoted : Bool) : Tag :=
  tag.mapNewest fun a => { a with hasValue := true, quoted := quoted }

/-- A character in text. -/
def dataStep (c : Char) (rest : List Char) : Step :=
  if c = '<' then .to .tagOpen
  else if c = '&' then
    match reference false rest with
    | .ampersand => .go .data [.character '&'] 0
    | .characters chars size => .go .data (chars.map .character) size
    | .fault fault => .fault (.reference fault)
  else if c.toNat = 0 then .fault (.unexpected c .data)
  else .go .data [.character c] 0

/-- Whether `word` stands at the front of `cs`, in whatever case. -/
def startsWithWord (word : String) (cs : List Char) : Bool :=
  word.toList.isPrefixOf (cs.map Char.toLower)

/-- The character after `<`, which stands at the byte before `pos`. -/
def tagOpenStep (pos : Nat) (c : Char) (rest : List Char) : Step :=
  if c = '!' then
    if "--".toList.isPrefixOf rest then .go .commentStart [] 2
    else if startsWithWord "doctype" rest then .go .doctype [] 7
    else .fault (.unexpected c .markupDeclarationOpen)
  else if c = '/' then .to .endTagOpen
  else if c.isAlpha then .to (.tagName ⟨false, c.toLower.toString, [], false, pos - 1, 0⟩)
  else .fault (.unexpected c .tagOpen)

/-- The character after `</`, which stands at the two bytes before `pos`. -/
def endTagOpenStep (pos : Nat) (c : Char) : Step :=
  if c.isAlpha then .to (.tagName ⟨true, c.toLower.toString, [], false, pos - 2, 0⟩)
  else .fault (.unexpected c .endTagOpen)

/-- A character in the name of a tag. -/
def tagNameStep (tag : Tag) (pos : Nat) (c : Char) : Step :=
  if isTagBlank c then .to (.beforeAttributeName tag)
  else if c = '/' then .to (.selfClosingStartTag tag)
  else if c = '>' then endTag tag pos
  else if c.toNat = 0 then .fault (.unexpected c (.tagName tag))
  else .to (.tagName { tag with name := tag.name.push c.toLower })

/-- A character where an attribute may start. -/
def beforeAttributeNameStep (tag : Tag) (pos : Nat) (c : Char) : Step :=
  if isTagBlank c then .to (.beforeAttributeName tag)
  else if c = '/' then .to (.selfClosingStartTag tag)
  else if c = '>' then endTag tag pos
  else if c.toNat = 0 || c = '"' || c = '\'' || c = '<' || c = '=' then
    .fault (.unexpected c (.beforeAttributeName tag))
  else startAttribute tag pos c

/-- A character in the name of an attribute. -/
def attributeNameStep (tag : Tag) (pos : Nat) (c : Char) : Step :=
  if isTagBlank c then .to (.afterAttributeName tag)
  else if c = '/' then .to (.selfClosingStartTag tag)
  else if c = '=' then .to (.beforeAttributeValue tag)
  else if c = '>' then endTag tag pos
  else if c.toNat = 0 || c = '"' || c = '\'' || c = '<' then .fault (.unexpected c (.attributeName tag))
  else .to (.attributeName (tag.pushName c))

/-- A character after the name of an attribute and a blank. -/
def afterAttributeNameStep (tag : Tag) (pos : Nat) (c : Char) : Step :=
  if isTagBlank c then .to (.afterAttributeName tag)
  else if c = '/' then .to (.selfClosingStartTag tag)
  else if c = '=' then .to (.beforeAttributeValue tag)
  else if c = '>' then endTag tag pos
  else if c.toNat = 0 || c = '"' || c = '\'' || c = '<' then
    .fault (.unexpected c (.afterAttributeName tag))
  else startAttribute tag pos c

/-- A character of an attribute value. -/
def valueCharacter (quoting : Quoting) (tag : Tag) (c : Char) (rest : List Char) : Step :=
  if c = '&' then
    match reference true rest with
    | .ampersand => .to (.attributeValue quoting (tag.pushValue ['&']))
    | .characters chars size => .go (.attributeValue quoting (tag.pushValue chars)) [] size
    | .fault fault => .fault (.reference fault)
  else if c.toNat = 0 then .fault (.unexpected c (.attributeValue quoting tag))
  else .to (.attributeValue quoting (tag.pushValue [c]))

/-- A character of an attribute value, or the end of the value. -/
def attributeValueStep (quoting : Quoting) (tag : Tag) (pos : Nat) (c : Char) (rest : List Char) : Step :=
  match quoting with
  | .double =>
    if c = '"' then .to (.afterAttributeValueQuoted tag) else valueCharacter .double tag c rest
  | .single =>
    if c = '\'' then .to (.afterAttributeValueQuoted tag) else valueCharacter .single tag c rest
  | .unquoted =>
    if isTagBlank c then .to (.beforeAttributeName tag)
    else if c = '>' then endTag tag pos
    else if c = '"' || c = '\'' || c = '<' || c = '=' || c = '`' then
      .fault (.unexpected c (.attributeValue .unquoted tag))
    else valueCharacter .unquoted tag c rest

/-- A character after `=`. A closing bracket leaves the value out, which is a fault of the `=`. -/
def beforeAttributeValueStep (tag : Tag) (pos : Nat) (c : Char) (rest : List Char) : Step :=
  if isTagBlank c then .to (.beforeAttributeValue tag)
  else if c = '"' then .to (.attributeValue .double (tag.openValue true))
  else if c = '\'' then .to (.attributeValue .single (tag.openValue true))
  else if c = '>' then .fault (.unexpected '=' (.beforeAttributeValue tag))
  else attributeValueStep .unquoted (tag.openValue false) pos c rest

/-- A character after a quoted value. -/
def afterAttributeValueQuotedStep (tag : Tag) (pos : Nat) (c : Char) : Step :=
  if isTagBlank c then .to (.beforeAttributeName tag)
  else if c = '/' then .to (.selfClosingStartTag tag)
  else if c = '>' then endTag tag pos
  else .fault (.unexpected c (.afterAttributeValueQuoted tag))

/-- The character after a slash in a tag. -/
def selfClosingStartTagStep (tag : Tag) (pos : Nat) (c : Char) : Step :=
  if c = '>' then endTag { tag with selfClosing := true } pos
  else .fault (.unexpected c (.selfClosingStartTag tag))

/-- A character in a comment. -/
def commentStep (text : String) (c : Char) : Step :=
  if c = '<' then .to (.commentLessThan (text.push c))
  else if c = '-' then .to (.commentEndDash text)
  else if c.toNat = 0 then .fault (.unexpected c (.comment text))
  else .to (.comment (text.push c))

/-- The first character of a comment. -/
def commentStartStep (c : Char) : Step :=
  if c = '-' then .to .commentStartDash
  else if c.toNat = 0 || c = '>' then .fault (.unexpected c .commentStart)
  else .to (.comment c.toString)

/-- The character after a dash that starts a comment. -/
def commentStartDashStep (c : Char) : Step :=
  if c = '-' then .to (.commentEnd "")
  else if c.toNat = 0 || c = '>' then .fault (.unexpected c .commentStartDash)
  else .to (.comment ("-".push c))

/-- The character after a dash in a comment. -/
def commentEndDashStep (text : String) (c : Char) : Step :=
  if c = '-' then .to (.commentEnd text)
  else if c.toNat = 0 then .fault (.unexpected c (.commentEndDash text))
  else .to (.comment ((text ++ "-").push c))

/-- The character after two dashes in a comment. -/
def commentEndStep (text : String) (c : Char) : Step :=
  if c = '>' then .go .data [.comment text] 0
  else if c = '!' then .to (.commentEndBang text)
  else if c = '-' then .to (.commentEnd (text ++ "-"))
  else if c.toNat = 0 then .fault (.unexpected c (.commentEnd text))
  else .to (.comment ((text ++ "--").push c))

/-- The character after `--!` in a comment. -/
def commentEndBangStep (text : String) (c : Char) : Step :=
  if c = '-' then .to (.commentEndDash (text ++ "--!"))
  else if c.toNat = 0 || c = '>' then .fault (.unexpected c (.commentEndBang text))
  else .to (.comment ((text ++ "--!").push c))

/-- A character in an identifier of a document type. -/
def doctypeIdentifierStep (quoting : Quoting) (identifier : Identifier) (c : Char) : Step :=
  if c = (if quoting = .double then '"' else '\'') then .to (.afterDoctypeIdentifier identifier)
  else if c.toNat = 0 || c = '>' then .fault (.unexpected c (.doctypeIdentifier quoting identifier))
  else .to (.doctypeIdentifier quoting identifier)

/-- A quote that starts an identifier of a document type. -/
def startIdentifier (identifier : Identifier) (c : Char) (state : State) : Step :=
  if c = '"' then .to (.doctypeIdentifier .double identifier)
  else if c = '\'' then .to (.doctypeIdentifier .single identifier)
  else .fault (.unexpected c state)

/-- What the character `c` at the byte `pos` does to a scan that stands in a state; `rest` follows it. -/
def State.step (state : State) (pos : Nat) (c : Char) (rest : List Char) : Step :=
  match state with
  | .data => dataStep c rest
  | .tagOpen => tagOpenStep pos c rest
  | .endTagOpen => endTagOpenStep pos c
  | .tagName tag => tagNameStep tag pos c
  | .beforeAttributeName tag => beforeAttributeNameStep tag pos c
  | .attributeName tag => attributeNameStep tag pos c
  | .afterAttributeName tag => afterAttributeNameStep tag pos c
  | .beforeAttributeValue tag => beforeAttributeValueStep tag pos c rest
  | .attributeValue quoting tag => attributeValueStep quoting tag pos c rest
  | .afterAttributeValueQuoted tag => afterAttributeValueQuotedStep tag pos c
  | .selfClosingStartTag tag => selfClosingStartTagStep tag pos c
  | .markupDeclarationOpen => .fault (.unexpected c state)
  | .commentStart => commentStartStep c
  | .commentStartDash => commentStartDashStep c
  | .comment text => commentStep text c
  | .commentLessThan text =>
    if c = '!' then .to (.commentLessThanBang (text.push c))
    else if c = '<' then .to (.commentLessThan (text.push c))
    else commentStep text c
  | .commentLessThanBang text =>
    if c = '-' then .to (.commentLessThanBangDash text) else commentStep text c
  | .commentLessThanBangDash text =>
    if c = '-' then .to (.commentLessThanBangDashDash text) else commentEndDashStep text c
  | .commentLessThanBangDashDash text =>
    if c = '>' then commentEndStep text c else .fault (.unexpected c state)
  | .commentEndDash text => commentEndDashStep text c
  | .commentEnd text => commentEndStep text c
  | .commentEndBang text => commentEndBangStep text c
  | .doctype =>
    if isTagBlank c then .to .beforeDoctypeName
    else .fault (.unexpected c (if c = '>' then .beforeDoctypeName else state))
  | .beforeDoctypeName =>
    if isTagBlank c then .to state
    else if c.toNat = 0 || c = '>' then .fault (.unexpected c state)
    else .to .doctypeName
  | .doctypeName =>
    if isTagBlank c then .to .afterDoctypeName
    else if c = '>' then .go .data [.doctype] 0
    else if c.toNat = 0 then .fault (.unexpected c state)
    else .to state
  | .afterDoctypeName =>
    if startsWithWord "public" (c :: rest.take 5) then .go (.afterDoctypeKeyword .publicId) [] 5
    else if startsWithWord "system" (c :: rest.take 5) then .go (.afterDoctypeKeyword .systemId) [] 5
    else if isTagBlank c then .to state
    else if c = '>' then .go .data [.doctype] 0
    else .fault (.unexpected c state)
  | .afterDoctypeKeyword identifier =>
    if isTagBlank c then .to (.beforeDoctypeIdentifier identifier) else .fault (.unexpected c state)
  | .beforeDoctypeIdentifier identifier =>
    if isTagBlank c then .to state else startIdentifier identifier c state
  | .doctypeIdentifier quoting identifier => doctypeIdentifierStep quoting identifier c
  | .afterDoctypeIdentifier .publicId =>
    if isTagBlank c then .to .betweenDoctypeIdentifiers
    else if c = '>' then .go .data [.doctype] 0
    else .fault (.unexpected c state)
  | .afterDoctypeIdentifier .systemId =>
    if isTagBlank c then .to state
    else if c = '>' then .go .data [.doctype] 0
    else .fault (.unexpected c state)
  | .betweenDoctypeIdentifiers =>
    if isTagBlank c then .to state
    else if c = '>' then .go .data [.doctype] 0
    else startIdentifier .systemId c state

/-- The state that the end of the markup is a fault of, if it is one. -/
def State.openAtEnd : State → Option State
  | .data => none
  | .beforeAttributeValue tag => some (.attributeValue .unquoted tag)
  | .commentLessThan text => some (.comment text)
  | .commentLessThanBang text => some (.comment text)
  | .commentLessThanBangDash text => some (.commentEndDash text)
  | .commentLessThanBangDashDash text => some (.commentEnd text)
  | state => some state

/-! ## Scans -/

/-- The tokens of some markup, and the fault that ends it if there is one. -/
structure Scan where
  tokens : List Token
  fault : Option Fault
deriving Repr

/-- Tokens handed out before the rest of a scan. -/
def Scan.after (tokens : List Token) (scan : Scan) : Scan :=
  { scan with tokens := tokens ++ scan.tokens }

/-- The tokens of `cs`, which starts at the byte `pos`, when the scan stands in `state`. A carriage return counts
as a line feed, together with the line feed that may follow it. -/
def scanFrom (state : State) (pos : Nat) : List Char → Scan
  | [] => ⟨[], state.openAtEnd.map .unexpectedEnd⟩
  | c :: rest =>
    let joined := c = '\r' && rest.head? = some '\n'
    let c' := if c = '\r' then '\n' else c
    if isForbiddenCode c'.toNat then ⟨[], some (.forbidden c')⟩
    else
      match state.step pos c' rest with
      | .fault fault => ⟨[], some fault⟩
      | .go next tokens size =>
        let taken := if joined then 1 else size
        let width := c.utf8Size + byteLength (rest.take taken)
        Scan.after tokens (scanFrom next (pos + width) (rest.drop taken))
termination_by cs => cs.length

/-- The tokens of a source text. A byte order mark at its start is left out. -/
def tokenize (source : List Char) : Scan :=
  match source with
  | c :: rest => if c.toNat = 0xFEFF then scanFrom .data c.utf8Size rest else scanFrom .data 0 source
  | [] => ⟨[], none⟩

end TemplateCompiler.Markup
