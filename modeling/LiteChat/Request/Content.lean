import LiteChat.Json.Basic
import LiteChat.Service.Wire

/-!
# Chat messages to send

The text of a chat message is a row of segments: text, line breaks and links, each
with its formatting.  A message may carry one image that has been uploaded before.
-/

namespace LiteChat

/-- The formatting of a segment. -/
structure Formatting where
  bold : Bool := false
  italic : Bool := false
  strikethrough : Bool := false
  underline : Bool := false
  deriving DecidableEq, Repr, Inhabited

/-- One run of the text of a chat message. -/
structure Segment where
  /-- What the run is. -/
  kind : SegmentKind
  /-- Its text. -/
  text : String
  /-- How the text is shown. -/
  formatting : Formatting := {}
  /-- Where it leads. -/
  target : Option String := none
  deriving DecidableEq, Repr

namespace Segment

/-- A run of plain text. -/
def ofText (text : String) : Segment := ⟨.text, text, {}, none⟩

/-- A line break. -/
def lineBreak : Segment := ⟨.lineBreak, "\n", {}, none⟩

/-- A link. -/
def link (text target : String) : Segment := ⟨.link, text, {}, some target⟩

instance : Inhabited Segment := ⟨lineBreak⟩

/-- A segment as the array that goes to the service: its kind, its text, the four
formats, and an array with its target. -/
def encode (s : Segment) : Json :=
  .array
    [.int s.kind.wire, .string s.text,
     .array
      [.bool s.formatting.bold, .bool s.formatting.italic, .bool s.formatting.strikethrough,
       .bool s.formatting.underline],
     match s.target with
     | some target => .array [.string target]
     | none => .null]

end Segment

/-- An image that has been uploaded. -/
inductive ImageAttachment where
  /-- Uploaded by this account. -/
  | own (image : String)
  /-- Uploaded by another user. -/
  | ofUser (image user : String)
  deriving DecidableEq, Repr, Inhabited

/-- An image as the array that goes to the service. -/
def ImageAttachment.encode : ImageAttachment → Json
  | .own image => .array [.array [.string image, .bool false, .null, .bool false]]
  | .ofUser image user =>
    .array [.array [.string image, .bool false, .string user, .bool true]]

/-- A chat message to send. -/
structure OutgoingMessage where
  /-- Its text. -/
  segments : List Segment
  /-- Its image. -/
  image : Option ImageAttachment := none
  /-- Whether it is kept in the history. -/
  otrStatus : OffTheRecordStatus := .onTheRecord
  /-- The medium that delivers it. -/
  medium : DeliveryMedium := .babel
  deriving DecidableEq, Repr, Inhabited

/-- The chat message with one run of plain text. -/
def OutgoingMessage.ofText (text : String) : OutgoingMessage := { segments := [.ofText text] }

end LiteChat
