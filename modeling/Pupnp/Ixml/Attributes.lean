import Pupnp.Ixml.Free

/-!
The attributes of an element, a doubly linked list that starts at the element. The loops over the list run at
most as often as there are cells; `strcmp` with NULL cannot be done.
-/

namespace Pupnp.Ixml.Dom
open Pupnp.Cells Pupnp.CString

/-- The values of `IXML_ERRORCODE` that the functions on attributes give. -/
inductive AttrCode where
  | success
  | invalidParameter
  | invalidCharacterErr
  | wrongDocumentErr
  | inuseAttributeErr
  | notFoundErr
  | namespaceErr
  | failed
  deriving DecidableEq, Repr

/-- `Parser_isValidXmlName`, which looks no further when the first character begins no name -/
def parserIsValidXmlName (name : List UInt8) : Bool :=
  let char (c : UInt8) : Int := if c < 128 then c.toNat else (c.toNat : Int) - 256
  match name with
  | [] => true
  | c :: rest => if parserIsNameChar (char c) false then rest.all fun c => parserIsNameChar (char c) true else true

/-! ### Comparisons -/

def strcmpEq (s1 s2 : Option (List UInt8)) : Option Bool := do
  let s1 ← s1
  let s2 ← s2
  some (s1 = s2)

def both (left right : Option Bool) : Option Bool := left.bind fun holds => if holds then right else some false

def nameIs (name : Option (List UInt8)) (attrNode : Cell) : Option Bool := strcmpEq attrNode.nodeName name

def nameIsNS (namespaceURI localName : Option (List UInt8)) (attrNode : Cell) : Option Bool :=
  both (strcmpEq attrNode.localName localName) (strcmpEq attrNode.namespaceURI namespaceURI)

def compareContents (srcNode destNode : Content) : Option Bool :=
  both (strcmpEq srcNode.nodeName destNode.nodeName)
    (both (strcmpEq srcNode.nodeValue destNode.nodeValue)
      (both (some (srcNode.nodeType = destNode.nodeType))
        (both (strcmpEq srcNode.namespaceURI destNode.namespaceURI)
          (both (strcmpEq srcNode.prefixName destNode.prefixName) (strcmpEq srcNode.localName destNode.localName)))))

def ixmlNodeCompare (srcNode destNode : Nat) (src dest : Cell) : Option Bool :=
  if srcNode = destNode then some true else compareContents src.toContent dest.toContent

/-! ### Searches -/

def cellCount (memory : Memory Cell) : Nat := memory.keys.length

def search (memory : Memory Cell) (isIt : Nat → Cell → Option Bool) : Nat → Option Nat → Option (Option Nat)
  | _, none => some none
  | 0, some _ => none
  | rounds + 1, some attrNode => do
      let cell ← memory.lookup attrNode
      let found ← isIt attrNode cell
      if found then some (some attrNode) else search memory isIt rounds cell.nextSibling

def searchAttrs (memory : Memory Cell) (isIt : Nat → Cell → Option Bool) (element : Nat) : Option (Option Nat) := do
  let e ← memory.lookup element
  search memory isIt (cellCount memory) e.firstAttr

def getAttribute (memory : Memory Cell) (element : Option Nat) (name : Option (List UInt8)) :
    Option (Option (List UInt8)) :=
  match element, name with
  | some element, some name => do
      let attrNode ← searchAttrs memory (fun _ => nameIs (some name)) element
      match attrNode with
      | none => some none
      | some attrNode => (memory.lookup attrNode).map (·.nodeValue)
  | _, _ => some none

/-! ### Links -/

def replaceAttr (memory : Memory Cell) (element newAttr attrNode : Nat) : Option (Memory Cell) := do
  let node ← memory.lookup attrNode
  let memory ← storeAt memory node.prevSibling ({ · with nextSibling := some newAttr })
  let memory ← storeAt memory node.nextSibling ({ · with prevSibling := some newAttr })
  let e ← memory.lookup element
  if e.firstAttr = some attrNode then store memory element ({ · with firstAttr := some newAttr }) else some memory

/-- The new attribute is linked behind the last one, and linked back to it if `linkBack`. -/
def appendAttr (memory : Memory Cell) (element newAttr : Nat) (linkBack : Bool) : Option (Memory Cell) := do
  let e ← memory.lookup element
  match e.firstAttr with
  | some first => do
      let prevAttr ← lastAlong (·.nextSibling) (cellCount memory) memory (some first) first
      let memory ← store memory prevAttr ({ · with nextSibling := some newAttr })
      if linkBack then store memory newAttr ({ · with prevSibling := some prevAttr }) else some memory
  | none => do
      let memory ← store memory element ({ · with firstAttr := some newAttr })
      store memory newAttr ({ · with prevSibling := none, nextSibling := none })

def ixmlAttrFree (memory : Memory Cell) (attr : Nat) : Option (Memory Cell) :=
  (ixmlNodeFree (cellCount memory) memory (some attr)).map (·.memory)

/-! ### The calls: the code, what is stored through `rtAttr`, and the memory behind it -/

def setAttributeNode (memory : Memory Cell) (element newAttr : Option Nat) (rtAttr : Bool) :
    Option (AttrCode × Option Nat × Memory Cell) :=
  match element, newAttr with
  | some element, some newAttr => do
      let node ← memory.lookup newAttr
      let e ← memory.lookup element
      if node.ownerDocument ≠ e.ownerDocument then some (.wrongDocumentErr, none, memory)
      else if node.ownerElement ≠ none then some (.inuseAttributeErr, none, memory)
      else do
        let memory ← store memory newAttr ({ · with ownerElement := some element })
        let attrNode ← searchAttrs memory (fun _ => nameIs node.nodeName) element
        match attrNode with
        | some attrNode => do
            let memory ← replaceAttr memory element newAttr attrNode
            if rtAttr then some (.success, some attrNode, memory)
            else do
              let memory ← ixmlAttrFree memory attrNode
              some (.success, none, memory)
        | none => do
            let memory ← appendAttr memory element newAttr true
            some (.success, none, memory)
  | _, _ => some (.invalidParameter, none, memory)

/-- `ixmlElement_setAttributeNodeNS`, which takes an attribute that the element owns already, too -/
def setAttributeNodeNS (memory : Memory Cell) (element newAttr : Option Nat) (rtAttr : Bool) :
    Option (AttrCode × Option Nat × Memory Cell) :=
  match element, newAttr with
  | some element, some newAttr => do
      let node ← memory.lookup newAttr
      let e ← memory.lookup element
      if node.ownerDocument ≠ e.ownerDocument then some (.wrongDocumentErr, none, memory)
      else if node.ownerElement ≠ none ∧ node.ownerElement ≠ some element then
        some (.inuseAttributeErr, none, memory)
      else do
        let memory ← store memory newAttr ({ · with ownerElement := some element })
        let attrNode ← searchAttrs memory (fun _ => nameIsNS node.namespaceURI node.localName) element
        match attrNode with
        | some attrNode => do
            let memory ← replaceAttr memory element newAttr attrNode
            if rtAttr then some (.success, some attrNode, memory) else none
        | none => do
            let memory ← appendAttr memory element newAttr false
            some (.success, none, memory)
  | _, _ => some (.invalidParameter, none, memory)

def findAttributeNode (memory : Memory Cell) (element oldAttr : Nat) : Option (Option Nat) := do
  let dest ← memory.lookup oldAttr
  searchAttrs memory (fun attrNode cell => ixmlNodeCompare attrNode oldAttr cell dest) element

def removeAttributeNode (memory : Memory Cell) (element oldAttr : Option Nat) (rtAttr : Bool) :
    Option (AttrCode × Option Nat × Memory Cell) :=
  match element, oldAttr with
  | some element, some oldAttr => do
      let attrNode ← findAttributeNode memory element oldAttr
      match attrNode with
      | some attrNode => do
          let node ← memory.lookup attrNode
          let memory ← storeAt memory node.prevSibling ({ · with nextSibling := node.nextSibling })
          let memory ← storeAt memory node.nextSibling ({ · with prevSibling := node.prevSibling })
          let e ← memory.lookup element
          let memory ← if e.firstAttr = some attrNode then
              store memory element ({ · with firstAttr := node.nextSibling })
            else some memory
          let memory ← store memory attrNode
            ({ · with parentNode := none, prevSibling := none, nextSibling := none })
          if rtAttr then some (.success, some attrNode, memory) else none
      | none => some (.notFoundErr, none, memory)
  | _, _ => some (.invalidParameter, none, memory)

variable (malloc : Malloc Cell)

/-- `ixmlDocument_createAttributeEx`. Without a document it frees memory that was never set. -/
def createAttributeEx (memory : Memory Cell) (doc : Option Nat) (name : List UInt8) : Option (Nat × Memory Cell) :=
  doc.map fun doc =>
    let attrNode : Cell := { nodeType := .attribute, nodeName := some name, ownerDocument := some doc }
    (malloc.address memory, memory.insert (malloc.address memory) attrNode)

def setAttribute (memory : Memory Cell) (element : Option Nat) (name value : Option (List UInt8)) :
    Option (AttrCode × Memory Cell) :=
  match element, name, value with
  | some element, some name, some value =>
      if !parserIsValidXmlName name then some (.invalidCharacterErr, memory)
      else do
        let attrNode ← searchAttrs memory (fun _ => nameIs (some name)) element
        match attrNode with
        | none => do
            let e ← memory.lookup element
            let (newAttrNode, memory) ← createAttributeEx malloc memory e.ownerDocument name
            let memory ← store memory newAttrNode ({ · with nodeValue := some value })
            let (errCode, _, memory) ← setAttributeNode memory (some element) (some newAttrNode) false
            if errCode ≠ .success then do
              let memory ← ixmlAttrFree memory newAttrNode
              some (errCode, memory)
            else some (.success, memory)
        | some attrNode => do
            let memory ← store memory attrNode ({ · with nodeValue := some value })
            some (.success, memory)
  | _, _, _ => some (.invalidParameter, memory)

/-! ### The calls with a namespace -/

def getAttributeNodeNS (memory : Memory Cell) (element : Option Nat) (namespaceURI localName : Option (List UInt8)) :
    Option (Option Nat) :=
  match element, namespaceURI, localName with
  | some element, some namespaceURI, some localName =>
      searchAttrs memory (fun _ => nameIsNS (some namespaceURI) (some localName)) element
  | _, _, _ => some none

def getAttributeNS (memory : Memory Cell) (element : Option Nat) (namespaceURI localName : Option (List UInt8)) :
    Option (Option (List UInt8)) :=
  match element, namespaceURI, localName with
  | some element, some namespaceURI, some localName => do
      let attrNode ← searchAttrs memory (fun _ => nameIsNS (some namespaceURI) (some localName)) element
      match attrNode with
      | none => some none
      | some attrNode => (memory.lookup attrNode).map (·.nodeValue)
  | _, _, _ => some none

/-- `ixmlElement_removeAttributeNS`, which only takes the value away -/
def removeAttributeNS (memory : Memory Cell) (element : Option Nat) (namespaceURI localName : Option (List UInt8)) :
    Option (AttrCode × Memory Cell) :=
  match element, namespaceURI, localName with
  | some element, some namespaceURI, some localName => do
      let attrNode ← searchAttrs memory (fun _ => nameIsNS (some namespaceURI) (some localName)) element
      match attrNode with
      | none => some (.success, memory)
      | some attrNode => do
          let memory ← store memory attrNode ({ · with nodeValue := none })
          some (.success, memory)
  | _, _, _ => some (.invalidParameter, memory)

def setNodeName (node : Cell) (qualifiedName : List UInt8) : Cell :=
  let parts := parserSetNodePrefixAndLocalName qualifiedName
  { node with nodeName := some qualifiedName, prefixName := parts.1, localName := some parts.2 }

/-- `ixmlDocument_createAttributeNSEx` with names that are not NULL -/
def createAttributeNSEx (memory : Memory Cell) (doc : Option Nat) (namespaceURI qualifiedName : List UInt8) :
    Option (AttrCode × Option Nat × Memory Cell) :=
  match doc with
  | none => some (.invalidParameter, none, memory)
  | some doc => do
      let (attrNode, memory) ← createAttributeEx malloc memory (some doc) qualifiedName
      let memory ← store memory attrNode ({ · with namespaceURI := some namespaceURI })
      let memory ← store memory attrNode (setNodeName · qualifiedName)
      some (.success, some attrNode, memory)

def namespaceError (prefixName : Option (List UInt8)) (namespaceURI qualifiedName : List UInt8) : Bool :=
  (prefixName = some (bytes "xml") && namespaceURI ≠ bytes "http://www.w3.org/XML/1998/namespace") ||
    (qualifiedName = bytes "xmlns" && namespaceURI ≠ bytes "http://www.w3.org/2000/xmlns/")

def setAttributeNS (memory : Memory Cell) (element : Option Nat) (namespaceURI qualifiedName value : Option (List UInt8)) :
    Option (AttrCode × Memory Cell) :=
  match element, namespaceURI, qualifiedName, value with
  | some element, some namespaceURI, some qualifiedName, some value =>
      if !parserIsValidXmlName qualifiedName then some (.invalidCharacterErr, memory)
      else
        let (prefixName, localName) := parserSetNodePrefixAndLocalName qualifiedName
        if namespaceError prefixName namespaceURI qualifiedName then some (.namespaceErr, memory)
        else do
          let attrNode ← searchAttrs memory (fun _ => nameIsNS (some namespaceURI) (some localName)) element
          match attrNode with
          | some attrNode => do
              let memory ← store memory attrNode ({ · with prefixName := prefixName, nodeValue := some value })
              some (.success, memory)
          | none => do
              let e ← memory.lookup element
              let (rc, newAttr, memory) ← createAttributeNSEx malloc memory e.ownerDocument namespaceURI qualifiedName
              match newAttr with
              | none => some (rc, memory)
              | some newAttr => do
                  let memory ← store memory newAttr ({ · with nodeValue := some value })
                  let (errCode, _, memory) ← setAttributeNodeNS memory (some element) (some newAttr) true
                  if errCode ≠ .success then do
                    let memory ← ixmlAttrFree memory newAttr
                    some (.failed, memory)
                  else some (.success, memory)
  | _, _, _, _ => some (.invalidParameter, memory)

end Pupnp.Ixml.Dom
