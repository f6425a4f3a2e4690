import Mupnp.Util.StringTokenizer
import Mupnp.Xml.XmlRoundTrip

/-!
# SOAP messages

`soap/soap.c`, `soap/soap_request.c` and `soap/soap_response.c`: the envelope of a message, the
body node in it and the text of a message. A response has its body as the first child of the
envelope; a request looks for the name that the declaration of the SOAP namespace gives to the
body.

The headers of a message and the way it is sent are left out.
-/

set_option autoImplicit false
set_option relaxedAutoImplicit false

namespace Mupnp.Soap

open Foundation Util Xml

/-- `MUPNP_SOAP_VERSION_HEADER`. -/
def versionHeader : CString := "<?xml version=\"1.0\" encoding=\"utf-8\"?>".toList

/-- `MUPNP_SOAP_XMLNS_URL`. -/
def xmlnsUrl : CString := "http://schemas.xmlsoap.org/soap/envelope/".toList

/-- `MUPNP_SOAP_ENCSTYLE_URL`. -/
def encStyleUrl : CString := "http://schemas.xmlsoap.org/soap/encoding/".toList

/-- `mupnp_soap_createenvelopebodynode`. -/
def createEnvelopeBodyNode : XmlNode :=
  let envNode := ((XmlNode.new.setName (some "s:Envelope".toList)).setAttribute "xmlns:s".toList
    (some xmlnsUrl)).setAttribute "s:encodingStyle".toList (some encStyleUrl)
  envNode.addChildNode (XmlNode.new.setName (some "s:Body".toList))

/-- `mupnp_soap_request_setcontent` and `mupnp_soap_response_setcontent` on a new message: the text
of the message. -/
def setContent (node : XmlNode) : CString := versionHeader ++ '\n' :: nodeToString node

/-- The position of the child node that `mupnp_soap_response_getbodynode` returns. -/
def responseBodyPosition (envNode : XmlNode) : Option ℕ :=
  if envNode.hasChildNodes then some 0 else none

/-- One turn of the loop of `mupnp_soap_request_getbodynode`: the name of the body node, if an
attribute declares the SOAP namespace. -/
def bodyName (attr : XmlAttribute) : Option CString :=
  let tok := StringTokenizer.new (attr.name.getD []) ":".toList
  let nsPrefix := tok.nextToken
  if strstr nsPrefix.1 (some "xmlns".toList) ≠ -1 ∧ strcmp attr.value (some xmlnsUrl) = 0 then
    if nsPrefix.2.hasMoreToken then
      some ((nsPrefix.2.nextToken.1).getD [] ++ ':' :: "Body".toList)
    else some "Body".toList
  else none

/-- The position of the child node that `mupnp_soap_request_getbodynode` returns. -/
def requestBodyPosition (envNode : XmlNode) : Option ℕ :=
  if envNode.hasChildNodes then
    (envNode.attributes.findSome? bodyName).bind fun name ↦
      envNode.children.findIdx? fun (child : XmlNode) ↦ child.name.any (strcaseeq · name)
  else none

/-- `mupnp_soap_request_getbodynode`. -/
def requestBodyNode (envNode : XmlNode) : Option XmlNode :=
  (requestBodyPosition envNode).bind (envNode.children[·]?)

/-- Adds a child node to the body node at a position. -/
def addToBody (envNode : XmlNode) (position : Option ℕ) (node : XmlNode) : XmlNode :=
  match position with
  | none => envNode
  | some position =>
    .node envNode.value (envNode.children.modify position fun (body : XmlNode) ↦
      body.addChildNode node)

theorem setContent_eq (node : XmlNode) : setContent node = document node := rfl

/-- The envelope of a message around the content of its body. -/
def envelopeAround (content : List XmlNode) : XmlNode :=
  .node ⟨some "s:Envelope".toList, none,
      [⟨some "xmlns:s".toList, some xmlnsUrl⟩, ⟨some "s:encodingStyle".toList, some encStyleUrl⟩]⟩
    [.node ⟨some "s:Body".toList, none, []⟩ content]

theorem addToBody_response (node : XmlNode) :
    addToBody createEnvelopeBodyNode (responseBodyPosition createEnvelopeBodyNode) node =
      envelopeAround [node] := rfl

theorem addToBody_request (node : XmlNode) :
    addToBody createEnvelopeBodyNode (requestBodyPosition createEnvelopeBodyNode) node =
      envelopeAround [node] := rfl

end Mupnp.Soap
