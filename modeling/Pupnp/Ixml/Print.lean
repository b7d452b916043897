import Pupnp.Ixml.Document
import Pupnp.Ixml.Text

/-! Printing by `ixml.c`. What follows a text or a CDATA section among the children is not printed. -/

namespace Pupnp.Ixml
open CString

def escapeOctet (c : UInt8) : List UInt8 :=
  if c = 60 then LT
  else if c = 62 then GT
  else if c = 38 then AMP
  else if c = 39 then APOS
  else if c = 34 then QUOT
  else [c]

def copyWithEscape (p : List UInt8) : List UInt8 := p.flatMap escapeOctet

/-- `ixmlPrintDomTreeRecursive` for an attribute and its siblings. -/
def printAttributes : List Attr → List UInt8
  | [] => []
  | attr :: rest =>
      attr.nodeName ++ bytes "=\"" ++ copyWithEscape attr.nodeValue ++ bytes "\"" ++
        (if rest.isEmpty then [] else bytes " " ++ printAttributes rest)

def printStartTag (tag : Tag) (attrs : List Attr) (children : List Node) : List UInt8 :=
  bytes "<" ++ tag.nodeName ++ (if attrs.isEmpty then [] else bytes " " ++ printAttributes attrs) ++
    (match children with
    | .element .. :: _ => bytes ">\r\n"
    | _ => bytes ">")

def printEndTag (tag : Tag) (siblings : List Node) : List UInt8 :=
  bytes "</" ++ tag.nodeName ++
    (match siblings with
    | .text _ :: _ => bytes ">"
    | _ => bytes ">\r\n")

def printSiblings : List Node → List UInt8
  | [] => []
  | .text nodeValue :: _ => copyWithEscape nodeValue
  | .cdataSection nodeValue :: _ => bytes "<![CDATA[" ++ nodeValue ++ bytes "]]>"
  | .element tag attrs children :: siblings =>
      printStartTag tag attrs children ++ printSiblings children ++ printEndTag tag siblings ++
        printSiblings siblings

def ixmlPrintNode : Node → List UInt8
  | .element tag attrs children =>
      printStartTag tag attrs children ++ printSiblings children ++ bytes "</" ++ tag.nodeName ++ bytes ">\r\n"
  | .text nodeValue => printSiblings [.text nodeValue]
  | .cdataSection nodeValue => printSiblings [.cdataSection nodeValue]

end Pupnp.Ixml
