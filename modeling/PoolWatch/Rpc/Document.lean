import PoolWatch.Text.Search

/-!
# Call documents

The document that asks for one method, without parameters, and what is looked for in the document
that comes back.
-/

namespace PoolWatch.Rpc

/-- The five characters that have a meaning of their own are written as entities. -/
def escapeChar (c : Char) : List Char :=
  if c = '&' then "&amp;".toList
  else if c = '<' then "&lt;".toList
  else if c = '>' then "&gt;".toList
  else if c = '"' then "&quot;".toList
  else if c = '\'' then "&apos;".toList
  else [c]

def escape (text : List Char) : List Char := text.flatMap escapeChar

def opening : List Char := "<?xml version=\"1.0\"?><methodCall><methodName>".toList

def closing : List Char := "</methodName><params></params></methodCall>".toList

/-- The call of a method without parameters. -/
def document (method : String) : String :=
  String.ofList (opening ++ escape method.toList ++ closing)

def faultMark : List Char := "<fault>".toList

/-- Whether an answer tells of a fault, wherever it does. -/
def isFault (answer : String) : Bool := Text.hasMarker faultMark answer.toList

def documentStart : List Char := "<?".toList

/-- The answer from its XML declaration on. Without one it is left as it is. -/
def fromDeclaration (answer : String) : String :=
  String.ofList ((Text.fromMarker? documentStart answer.toList).getD answer.toList)

end PoolWatch.Rpc
