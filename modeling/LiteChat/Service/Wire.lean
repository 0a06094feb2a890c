/-!
# Enums on the wire

The enums that the client itself reads or writes.  The service sends and expects them
as numbers; a number that no value has is read as none (`ofWire?`).
-/

namespace LiteChat

/-- The value, among those listed, that a number stands for. -/
def fromWire? {α : Type} (all : List α) (wire : α → Int) (n : Int) : Option α :=
  all.find? fun a => decide (wire a = n)

/-- Which client the service takes to be the active one of an account. -/
inductive ActiveClientState where
  | noActive
  | isActive
  | otherActive
  deriving DecidableEq, Repr

namespace ActiveClientState

/-- The number on the wire. -/
def wire : ActiveClientState → Int
  | .noActive => 0
  | .isActive => 1
  | .otherActive => 2

/-- The state that a number stands for. -/
def ofWire? : Int → Option ActiveClientState := fromWire? [noActive, isActive, otherActive] wire

end ActiveClientState

/-- What a participant is doing at the keyboard. -/
inductive TypingType where
  | started
  | paused
  | stopped
  deriving DecidableEq, Repr

namespace TypingType

/-- The number on the wire. -/
def wire : TypingType → Int
  | .started => 1
  | .paused => 2
  | .stopped => 3

/-- The activity that a number stands for. -/
def ofWire? : Int → Option TypingType := fromWire? [started, paused, stopped] wire

end TypingType

/-- Whether a participant is looking at a conversation. -/
inductive FocusType where
  | focused
  | unfocused
  deriving DecidableEq, Repr

namespace FocusType

/-- The number on the wire. -/
def wire : FocusType → Int
  | .focused => 1
  | .unfocused => 2

/-- The focus that a number stands for. -/
def ofWire? : Int → Option FocusType := fromWire? [focused, unfocused] wire

end FocusType

/-- How loudly a conversation announces its events. -/
inductive NotificationLevel where
  | quiet
  | ring
  deriving DecidableEq, Repr

namespace NotificationLevel

/-- The number on the wire. -/
def wire : NotificationLevel → Int
  | .quiet => 10
  | .ring => 30

/-- The level that a number stands for. -/
def ofWire? : Int → Option NotificationLevel := fromWire? [quiet, ring] wire

end NotificationLevel

/-- Whether a message is kept in the history of its conversation. -/
inductive OffTheRecordStatus where
  | offTheRecord
  | onTheRecord
  deriving DecidableEq, Repr

namespace OffTheRecordStatus

/-- The number on the wire. -/
def wire : OffTheRecordStatus → Int
  | .offTheRecord => 1
  | .onTheRecord => 2

/-- The status that a number stands for. -/
def ofWire? : Int → Option OffTheRecordStatus := fromWire? [offTheRecord, onTheRecord] wire

end OffTheRecordStatus

/-- The medium that delivers a message. -/
inductive DeliveryMedium where
  | unknown
  | babel
  | googleVoice
  | localSms
  deriving DecidableEq, Repr

namespace DeliveryMedium

/-- The number on the wire. -/
def wire : DeliveryMedium → Int
  | .unknown => 0
  | .babel => 1
  | .googleVoice => 2
  | .localSms => 3

/-- The medium that a number stands for. -/
def ofWire? : Int → Option DeliveryMedium :=
  fromWire? [unknown, babel, googleVoice, localSms] wire

end DeliveryMedium

/-- The kind of a segment of a chat message. -/
inductive SegmentKind where
  | text
  | lineBreak
  | link
  deriving DecidableEq, Repr

namespace SegmentKind

/-- The number on the wire. -/
def wire : SegmentKind → Int
  | .text => 0
  | .lineBreak => 1
  | .link => 2

/-- The kind that a number stands for. -/
def ofWire? : Int → Option SegmentKind := fromWire? [text, lineBreak, link] wire

end SegmentKind

/-- The status in the header of a reply. -/
inductive ResponseStatus where
  | unknown
  | ok
  | busy
  | unexpectedError
  | invalidRequest
  deriving DecidableEq, Repr

namespace ResponseStatus

/-- The number on the wire. -/
def wire : ResponseStatus → Int
  | .unknown => 0
  | .ok => 1
  | .busy => 2
  | .unexpectedError => 3
  | .invalidRequest => 4

/-- The status that a number stands for. -/
def ofWire? : Int → Option ResponseStatus :=
  fromWire? [unknown, ok, busy, unexpectedError, invalidRequest] wire

end ResponseStatus

end LiteChat
