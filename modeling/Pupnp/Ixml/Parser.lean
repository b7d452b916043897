import Pupnp.Ixml.Skip

/-!
The parser of `ixmlparser.c`. The element stack and the chain of parents from `currentNodePtr` up grow and
shrink together, one list of open elements stands for both; the namespace of an element is kept in a map
by its address, because `pNeedPrefixNode` may write it later. Every allocation succeeds.
-/

namespace Pupnp.Ixml
open CString

/-- Why the parser stops: a code it returns, or a read behind the terminator of its buffer. -/
inductive Stop where
  | failed
  | syntaxErr
  | hierarchyRequestErr
  | invalidParameter
  | overread
  deriving DecidableEq, Repr

def Stop.recode : Stop → Stop → Stop
  | .overread, _ => .overread
  | _, code => code

structure Attr where
  nodeName : List UInt8
  nodeValue : List UInt8
  prefixName : Option (List UInt8) := none
  localName : Option (List UInt8) := none
  deriving DecidableEq, Repr

structure Tag where
  addr : Nat
  nodeName : List UInt8
  prefixName : Option (List UInt8)
  localName : List UInt8
  deriving DecidableEq, Repr

inductive Node where
  | element (tag : Tag) (attrs : List Attr) (children : List Node)
  | text (nodeValue : List UInt8)
  | cdataSection (nodeValue : List UInt8)
  deriving Repr

/-- `IXML_ElementStack`; `pNsURI` are pairs of a prefix and its URI. -/
structure ElementStack where
  element : List UInt8
  prefixName : Option (List UInt8)
  namespaceUri : Option (List UInt8)
  pNsURI : List (List UInt8 × List UInt8)
  deriving DecidableEq, Repr

/-- An element whose end tag is still to come: its node so far and its item of the stack. -/
structure Open where
  tag : Tag
  attrs : List Attr
  children : List Node
  item : ElementStack
  deriving Repr

inductive ParserState where
  | element
  | attribute
  | content
  deriving DecidableEq, Repr

structure Parser where
  /-- The text from `curPtr` to the terminator of the buffer. -/
  curPtr : List UInt8
  savePtr : List UInt8
  lastElem : List UInt8
  tokenBuf : List UInt8
  pNeedPrefixNode : Option Tag
  /-- The innermost element first. -/
  open_ : List Open
  state : ParserState
  bHasTopLevel : Bool
  /-- The children of the document. -/
  children : List Node
  namespaceURI : Nat → Option (List UInt8)
  /-- How many elements have been created. -/
  created : Nat

/-- `Parser_init` and the start of `Parser_LoadDocument` -/
def parserInit (buffer : List UInt8) : Parser where
  curPtr := buffer
  savePtr := []
  lastElem := []
  tokenBuf := []
  pNeedPrefixNode := none
  open_ := []
  state := .element
  bHasTopLevel := false
  children := []
  namespaceURI := fun _ => none
  created := 0

section Tokens
variable (errorChar : Int)

/-- The octets that `Parser_copyToken` appends for a character whose text has length `cl`. -/
def copiedChar (c : Int) (cl : Nat) : List UInt8 :=
  if cl = 1 then [UInt8.ofNat c.toNat] else parserIntToUTF8 c

/-- The loop of `Parser_copyToken` over `len` octets, with the token buffer so far: whether it
succeeds, and the buffer. -/
def copyLoop (src : List UInt8) (len : Nat) (tokenBuf : List UInt8) :
    Except Stop (Bool × List UInt8) :=
  if len = 0 then .ok (true, tokenBuf)
  else match _found : parserGetChar errorChar src with
    | none => .error .overread
    | some (c, cl) =>
        if _bad : c ≤ 0 then .ok (false, tokenBuf)
        else
          let uch := copiedChar c cl
          if uch = [] then .ok (false, tokenBuf)
          else if _over : len < cl then .ok (false, tokenBuf ++ uch)
          else copyLoop (src.drop cl) (len - cl) (tokenBuf ++ uch)
termination_by len
decreasing_by
  have some := parserGetChar_pos _found (by omega)
  omega

def parserCopyToken (p : Parser) (src : List UInt8) (len : Nat) : Except Stop (Bool × Parser) :=
  if len = 0 then .ok (false, p)
  else do
    let copied ← copyLoop errorChar src len p.tokenBuf
    return (copied.1, { p with tokenBuf := copied.2 })

/-- The length of the name at the start of a text, by the loop in `Parser_getNextToken`; the first
character has its own table. -/
def nameLength (bNameChar : Bool) (s : List UInt8) : Nat :=
  if _char : parserIsNameChar (parserUTF8ToInt errorChar s).1 bNameChar = true then
    (parserUTF8ToInt errorChar s).2 + nameLength true (s.drop (parserUTF8ToInt errorChar s).2)
  else 0
termination_by s.length
decreasing_by
  have long := parserUTF8ToInt_length (parserIsNameChar_pos _char)
  rw [List.length_drop]
  omega

/-- The token at the start of a text: its length, 0 for no token, and whether `savePtr` is set to it. -/
def tokenAt (curPtr : List UInt8) : Nat × Bool :=
  let c := curPtr.headD 0
  if c = 34 || c = 39 then (1, false)
  else if c = 60 then
    let temp := (parserUTF8ToInt errorChar curPtr.tail).1
    if temp = 47 then (2, false) else if parserIsNameChar temp false then (1, false) else (0, false)
  else if c = 61 then (1, false)
  else if c = 47 then if curPtr.tail.headD 0 = 62 then (2, true) else (0, false)
  else if c = 62 then (1, false)
  else (nameLength errorChar false curPtr, false)

/-- `Parser_getNextToken`: the length of the token, 0 for none, and the parser behind it. -/
def parserGetNextToken (p : Parser) : Except Stop (Nat × Parser) :=
  let p := { p with tokenBuf := [] }
  if p.curPtr = [] then .ok (0, p)
  else
    let misc := parserSkipMisc p.curPtr
    let p := { p with curPtr := misc.2 }
    if !misc.1 then .ok (0, p)
    else do
      let token := tokenAt errorChar p.curPtr
      let p := { p with savePtr := if token.2 then p.curPtr else p.savePtr }
      let copied ← parserCopyToken errorChar p p.curPtr token.1
      return if copied.1 then (token.1, { copied.2 with curPtr := copied.2.curPtr.drop token.1 })
        else (0, copied.2)

end Tokens

def parserSetNodePrefixAndLocalName (nodeName : List UInt8) : Option (List UInt8) × List UInt8 :=
  if nodeName.contains 58 then
    (some (nodeName.takeWhile (· ≠ 58)), (nodeName.dropWhile (· ≠ 58)).tail)
  else (none, nodeName)

/-- What `Parser_getNextNode` leaves in the node and `bETag`. -/
inductive NewNode where
  | none
  | startTag (nodeName : List UInt8) (prefixName : Option (List UInt8)) (localName : List UInt8)
  | endTag (nodeName : List UInt8)
  | text (nodeValue : List UInt8)
  | cdataSection (nodeValue : List UInt8)
  | attribute (attr : Attr)
  | fileDone
  deriving DecidableEq, Repr

section Nodes
variable (errorChar : Int)

def parserProcessSTag (p : Parser) : Except Stop (NewNode × Parser) := do
  let name ← parserGetNextToken errorChar p
  if name.1 = 0 then .error .syntaxErr
  else
    let nodeName := name.2.tokenBuf
    let parts := parserSetNodePrefixAndLocalName nodeName
    let p := { name.2 with lastElem := nodeName }
    let next ← parserGetNextToken errorChar { p with savePtr := p.curPtr }
    if next.1 = 0 then .error .syntaxErr
    else
      let p := next.2
      let p :=
        if p.tokenBuf = bytes "/>" then { p with state := .element, curPtr := p.savePtr }
        else if p.tokenBuf = bytes ">" then { p with state := .content }
        else { p with state := .attribute, curPtr := p.savePtr }
      return (.startTag nodeName parts.1 parts.2, p)

/-- Where the loop of `Parser_processCDSect` stops: at `]]>`, at the end or at the first octet that is no
XML character as a signed `char`. -/
def cdataEnd : List UInt8 → List UInt8
  | [] => []
  | c :: rest =>
      if !(c ≤ 127 && parserIsXmlChar c.toNat) || startsWith (c :: rest) (bytes "]]>") then c :: rest
      else cdataEnd rest

/-- `Parser_processCDSect`: the value and the text behind the section. The three octets behind the value
are skipped unread. -/
def parserProcessCDSect (src : List UInt8) : Except Stop (List UInt8 × List UInt8) :=
  let start := src.drop (bytes "<![CDATA[").length
  let pEnd := cdataEnd start
  let tokenLength := start.length - pEnd.length
  if tokenLength > 0 && pEnd ≠ [] then
    if pEnd.length < 3 then .error .overread else .ok (start.take tokenLength, pEnd.drop 3)
  else .error .syntaxErr

/-- Where the text of `Parser_processContent` ends: at a tag, at `]]>` or at the end. -/
def contentEnd : List UInt8 → List UInt8
  | [] => []
  | c :: rest =>
      if c = 60 || startsWith (c :: rest) (bytes "]]>") then c :: rest else contentEnd rest

def parserProcessContent (p : Parser) : Except Stop (NewNode × Parser) :=
  let p := { p with savePtr := p.curPtr, curPtr := parserSkipWhiteSpaces p.curPtr }
  if p.curPtr = [] then .ok (.none, p)
  else if p.curPtr.headD 0 = 60 then
    if startsWith p.curPtr (bytes "<![CDATA[") then
      match parserProcessCDSect p.curPtr with
      | .error stop => .error (stop.recode .syntaxErr)
      | .ok (nodeValue, pEnd) => .ok (.cdataSection nodeValue, { p with curPtr := pEnd })
    else if startsWith p.curPtr BEGIN_COMMENT then
      match parserSkipComment p.curPtr with
      | none => .error .syntaxErr
      | some pEnd => .ok (.none, { p with curPtr := pEnd })
    else if startsWith p.curPtr BEGIN_PI then
      match parserSkipPI p.curPtr with
      | none => .error .syntaxErr
      | some pEnd => .ok (.none, { p with curPtr := pEnd })
    else .ok (.none, { p with state := .element })
  else
    let p := { p with curPtr := p.savePtr }
    let pEndContent := contentEnd p.curPtr
    if startsWith pEndContent (bytes "]]>") then .error .syntaxErr
    else do
      let tokenLength := p.curPtr.length - pEndContent.length
      let copied ← parserCopyToken errorChar { p with tokenBuf := [] } p.curPtr tokenLength
      if !copied.1 || copied.2.tokenBuf = [] then .error .syntaxErr
      else
        return (.text copied.2.tokenBuf, { copied.2 with curPtr := copied.2.curPtr.drop tokenLength })

def parserProcessETag (p : Parser) : Except Stop (NewNode × Parser) := do
  let name ← parserGetNextToken errorChar p
  if name.1 = 0 then .error .syntaxErr
  else
    let p := { name.2 with curPtr := parserSkipWhiteSpaces name.2.curPtr }
    let close ← parserGetNextToken errorChar p
    if close.1 = 0 || close.2.tokenBuf ≠ bytes ">" then .error .syntaxErr
    else return (.endTag name.2.tokenBuf, close.2)

def parserGetNameSpace (item : ElementStack) (prefixName : List UInt8) : Option (List UInt8) :=
  if item.prefixName ≠ some prefixName then item.pNsURI.lookup prefixName else item.namespaceUri

/-- `Parser_addNamespace`, with `pNode` the node that waits and `pCur` the top of the stack. -/
def parserAddNamespace (p : Parser) (pNode : Tag) (pCur : ElementStack) : Except Stop Parser :=
  match pNode.prefixName with
  | none =>
      if pNode.nodeName ≠ pCur.element then .error .failed
      else
        let written :=
          match pCur.namespaceUri with
          | some uri => Function.update p.namespaceURI pNode.addr (some uri)
          | none => p.namespaceURI
        .ok { p with namespaceURI := written, pNeedPrefixNode := none }
  | some prefixName =>
      match pCur.prefixName with
      | none => .error .failed
      | some own =>
          if pNode.nodeName ≠ pCur.element && prefixName ≠ own then .error .failed
          else match parserGetNameSpace pCur own with
            | some uri =>
                .ok { p with
                  namespaceURI := Function.update p.namespaceURI pNode.addr (some uri)
                  pNeedPrefixNode := none }
            | none => .ok p

def defineNs (pNsURI : List (List UInt8 × List UInt8)) (localName nsURI : List UInt8) :
    List (List UInt8 × List UInt8) :=
  match pNsURI with
  | [] => [(localName, nsURI)]
  | (name, uri) :: rest =>
      if name = localName then (name, nsURI) :: rest else (name, uri) :: defineNs rest localName nsURI

/-- `Parser_xmlNamespace` for an attribute of the innermost element: the attribute with its prefix and
local name where it is a definition. -/
def parserXmlNamespace (p : Parser) (newNode : Attr) (top : Open) (outer : List Open) :
    Except Stop (Attr × Parser) := do
  let pCur := top.item
  let defined : Attr × ElementStack :=
    if newNode.nodeName = bytes "xmlns" then
      (newNode, { pCur with namespaceUri := some newNode.nodeValue })
    else if startsWith newNode.nodeName (bytes "xmlns:") then
      let parts := parserSetNodePrefixAndLocalName newNode.nodeName
      let attr := { newNode with prefixName := parts.1, localName := some parts.2 }
      if pCur.prefixName = some parts.2 then
        (attr, { pCur with namespaceUri := some newNode.nodeValue })
      else (attr, { pCur with pNsURI := defineNs pCur.pNsURI parts.2 newNode.nodeValue })
    else (newNode, pCur)
  let p := { p with open_ := { top with item := defined.2 } :: outer }
  match p.pNeedPrefixNode with
  | none => return (defined.1, p)
  | some pNode => return (defined.1, ← parserAddNamespace p pNode defined.2)

/-- The part of `Parser_processAttribute` from the opening quote `mark` to behind the closing one: the
value is left in the token buffer. -/
def attributeValue (p : Parser) (mark : List UInt8) : Except Stop Parser :=
  match strstr mark p.curPtr with
  | none => .error .syntaxErr
  | some strEndQuote =>
      if (p.curPtr.take strEndQuote).contains 60 then .error .syntaxErr
      else do
        let cleared := { p with tokenBuf := [] }
        let copied ←
          (if strEndQuote ≠ 0 then parserCopyToken errorChar cleared p.curPtr strEndQuote
          else .ok (true, cleared))
        if !copied.1 then .error .syntaxErr
        else return { copied.2 with curPtr := p.curPtr.drop (strEndQuote + 1) }

/-- The end of `Parser_processAttribute`: it reads ahead to see whether more attributes follow. -/
def attributeAhead (p : Parser) (attr : Attr) : Except Stop (NewNode × Parser) := do
  let next ← parserGetNextToken errorChar { p with savePtr := p.curPtr }
  if next.1 = 0 then .error .syntaxErr
  else
    let p := next.2
    if p.tokenBuf = bytes "<" then .error .failed
    else if p.tokenBuf ≠ bytes ">" then return (.attribute attr, { p with curPtr := p.savePtr })
    else return (.attribute attr, { p with state := .content })

def parserProcessAttribute (p : Parser) (top : Open) (outer : List Open) :
    Except Stop (NewNode × Parser) := do
  let nodeName := p.tokenBuf
  if nodeName = [] || !parserIsNameChar (parserUTF8ToInt errorChar nodeName).1 false then
    .error .syntaxErr
  else
    let equals ← parserGetNextToken errorChar p
    if equals.1 = 0 || equals.2.tokenBuf.headD 0 ≠ 61 then .error .syntaxErr
    else
      let quote ← parserGetNextToken errorChar equals.2
      let mark := quote.2.tokenBuf
      if quote.1 = 0 || (mark.headD 0 ≠ 34 && mark.headD 0 ≠ 39) then .error .syntaxErr
      else
        let p ← attributeValue errorChar quote.2 mark
        let named ← parserXmlNamespace p ⟨nodeName, p.tokenBuf, none, none⟩ top outer
        attributeAhead errorChar named.2 named.1

def parserGetNextNode (p : Parser) : Except Stop (NewNode × Parser) :=
  if p.curPtr = [] then .ok (.fileDone, p)
  else if p.state = .content then parserProcessContent errorChar p
  else do
    let token ← parserGetNextToken errorChar { p with curPtr := parserSkipWhiteSpaces p.curPtr }
    let p := token.2
    if token.1 = 0 && p.open_.isEmpty && p.curPtr = [] then return (.none, p)
    else if p.tokenBuf = [] then .error .syntaxErr
    else if p.tokenBuf.headD 0 = 62 then return (.none, p)
    else if p.tokenBuf = bytes "</" then parserProcessETag errorChar p
    else if p.tokenBuf.headD 0 = 60 then parserProcessSTag errorChar p
    else if p.tokenBuf = bytes "/>" then
      if p.lastElem = [] then .error .syntaxErr else return (.endTag p.lastElem, p)
    else match p.open_ with
      | [] => .error .syntaxErr
      | top :: outer =>
          if p.state = .attribute then
            match parserProcessAttribute errorChar p top outer with
            | .error stop => .error (stop.recode .syntaxErr)
            | .ok done => .ok done
          else .error .syntaxErr

end Nodes

/-! ### The document -/

/-- `Parser_ElementPrefixDefined`: the URI that the stack binds to a prefix, which may be NULL. -/
def parserElementPrefixDefined (prefixName : List UInt8) : List Open → Option (Option (List UInt8))
  | [] => none
  | top :: outer =>
      if top.item.prefixName = some prefixName then some top.item.namespaceUri
      else match top.item.pNsURI.lookup prefixName with
        | some uri => some (some uri)
        | none => parserElementPrefixDefined prefixName outer

def parserHasDefaultNamespace : List Open → Option (List UInt8)
  | [] => none
  | top :: outer =>
      match top.item.prefixName, top.item.namespaceUri with
      | none, some uri => some uri
      | _, _ => parserHasDefaultNamespace outer

/-- `ixmlNode_appendChild` of a node to `currentNodePtr`: a document takes elements only. -/
def appendNode (p : Parser) (node : Node) : Except Stop Parser :=
  match p.open_, node with
  | [], .element .. => .ok { p with children := p.children ++ [node] }
  | [], _ => .error .hierarchyRequestErr
  | top :: outer, _ => .ok { p with open_ := { top with children := top.children ++ [node] } :: outer }

/-- `Parser_processElementName`; `safe_strdup` makes an empty string of NULL. -/
def parserProcessElementName (p : Parser) (nodeName : List UInt8) (prefixName : Option (List UInt8))
    (localName : List UInt8) : Except Stop Parser :=
  if p.bHasTopLevel && p.open_.isEmpty then .error .syntaxErr
  else
    let tag : Tag := ⟨p.created, nodeName, prefixName, localName⟩
    let resolved : Option (List UInt8) × Option Tag :=
      match prefixName with
      | some name =>
          match parserElementPrefixDefined name p.open_ with
          | none => (none, some tag)
          | some nsURI => (some (nsURI.getD []), p.pNeedPrefixNode)
      | none =>
          match parserHasDefaultNamespace p.open_ with
          | some nsURI => (some nsURI, p.pNeedPrefixNode)
          | none => (none, if p.state = .attribute then some tag else p.pNeedPrefixNode)
    .ok { p with
      bHasTopLevel := true
      savePtr := p.curPtr
      pNeedPrefixNode := resolved.2
      namespaceURI := Function.update p.namespaceURI p.created resolved.1
      created := p.created + 1
      open_ := ⟨tag, [], [], ⟨nodeName, prefixName, resolved.1, []⟩⟩ :: p.open_ }

def parserProcessAttributeName (p : Parser) (attr : Attr) : Except Stop Parser :=
  match p.open_ with
  | [] => .error .invalidParameter
  | top :: outer =>
      if top.attrs.any (·.nodeName = attr.nodeName) then .error .syntaxErr
      else .ok { p with open_ := { top with attrs := top.attrs ++ [attr] } :: outer }

/-- `Parser_eTagVerification` and the state behind the tag: the element joins its parent's children. -/
def parserETagVerification (p : Parser) (nodeName : List UInt8) : Except Stop Parser :=
  match p.open_ with
  | [] => .error .syntaxErr
  | top :: outer =>
      if top.item.element ≠ nodeName || top.tag.nodeName ≠ nodeName then .error .syntaxErr
      else
        (appendNode { p with open_ := outer } (.element top.tag top.attrs top.children)).map
          fun p => { p with state := .content }

/-- One round of the loop in `Parser_parseDocument`; none when the file is done. -/
def parserRound (errorChar : Int) (p : Parser) : Except Stop (Option Parser) :=
  match parserGetNextNode errorChar p with
  | .error stop => .error (stop.recode .failed)
  | .ok (.fileDone, _) => .ok none
  | .ok (.none, p) => .ok (some p)
  | .ok (.startTag nodeName prefixName localName, p) =>
      (parserProcessElementName p nodeName prefixName localName).map some
  | .ok (.endTag nodeName, p) => (parserETagVerification p nodeName).map some
  | .ok (.text nodeValue, p) => (appendNode p (.text nodeValue)).map some
  | .ok (.cdataSection nodeValue, p) => (appendNode p (.cdataSection nodeValue)).map some
  | .ok (.attribute attr, p) => (parserProcessAttributeName p attr).map some

end Pupnp.Ixml
