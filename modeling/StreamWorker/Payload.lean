import StreamWorker.Json.Shape
import StreamWorker.Json.Writer

/-! What a message can carry, and how it is read from the bytes of an entry and written to them. -/

namespace StreamWorker

/-- The kinds of payload a worker can be made for. -/
inductive Payload.Kind where
  | document
  | job
  | word
  | texts
  | text
  | raw
  deriving Repr, DecidableEq

inductive Payload where
  | document (v : Json.Value)
  | job (j : Json.Job)
  | word (n : UInt32)
  | texts (l : List String)
  | text (s : String)
  | raw (b : Bytes)
  deriving Repr

namespace Payload

def ofJson {α : Type} (make : α → Payload) (reader : Bytes → Json.Reading α) (b : Bytes) :
    Except String Payload :=
  match Json.document reader b with
  | .ok v => .ok (make v)
  | .error fault => .error fault.message

/-- The payload of a kind that the bytes spell, or why they spell none. -/
def decode : Kind → Bytes → Except String Payload
  | .document, b => ofJson .document (Json.value Json.maxDepth) b
  | .job, b => ofJson .job Json.jobShape b
  | .word, b => ofJson .word Json.wordShape b
  | .texts, b => ofJson .texts (Json.listShape Json.textShape) b
  | .text, b =>
    match Utf8.decode b with
    | .ok s => .ok (.text s)
    | .error fault => .error fault.message
  | .raw, b => .ok (.raw b)

/-- The document of a job: its name and its weight. -/
def jobText (j : Json.Job) : List Char :=
  "\x7b\"name\":".toList ++ Json.stringText j.name ++ ",\"weight\":".toList
    ++ Nat.toDigits 10 j.weight.toNat ++ ['\x7d']

/-- The document of a list of texts. -/
def listText (l : List String) : List Char :=
  '[' :: Json.commaSeparated (l.map Json.stringText) ++ [']']

def encodeChars (l : List Char) : Bytes := Utf8.encode (String.ofList l)

/-- The bytes that spell a payload. -/
def encode : Payload → Bytes
  | .document v => encodeChars v.text
  | .job j => encodeChars (jobText j)
  | .word n => encodeChars (Nat.toDigits 10 n.toNat)
  | .texts l => encodeChars (listText l)
  | .text s => Utf8.encode s
  | .raw b => b

/-- The bytes of the document that is one text. -/
def encodeString (s : String) : Bytes := encodeChars (Json.stringText s)

end Payload

end StreamWorker
