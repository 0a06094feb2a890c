import LiteChat.Client.Basic

/-!
# Uploading an image

An upload takes two requests.  The first one announces the file at a fixed address, and
its reply names the address that the bytes go to; the reply to the second one holds the
id of the photo.  Both values are found in the reply by a path: keys of objects, and
positions in arrays.
-/

namespace LiteChat

namespace Json

/-- The position in an array that a step of a path names: a number without sign and
without zeros in front. -/
def position? (key : String) : Option Nat :=
  match key.toList with
  | '0' :: _ :: _ => none
  | digits => Text.nat? digits

/-- The value that one step of a path leads to. -/
def child? (key : String) : Json → Option Json
  | .object members => Keyed.get? key members
  | .array items => (position? key).bind fun i => items[i]?
  | _ => none

/-- The value at the end of a path. -/
def at? : List String → Json → Option Json
  | [], value => some value
  | key :: rest, value => (value.child? key).bind (at? rest)

end Json

namespace Upload

/-- The content type of the announcement. -/
def formType : String := "application/x-www-form-urlencoded;charset=UTF-8"

/-- The content type of the bytes. -/
def bytesType : String := "application/octet-stream"

/-- The path to the address that the bytes go to. -/
def addressPath : List String :=
  ["sessionStatus", "externalFieldTransfers", "0", "putInfo", "url"]

/-- The path to the id of the photo. -/
def photoPath : List String :=
  ["sessionStatus", "additionalInfo", "uploader_service.GoogleRupioAdditionalInfo",
   "completionInfo", "customerSpecificInfo", "photoid"]

/-- A path as text. -/
def pathText (path : List String) : String := String.join (path.map ("/" ++ ·))

/-- The announcement of a file. -/
def announcement (filename : String) (size : Nat) : Json :=
  .ofMembers
    [("protocolVersion", .string "0.8"),
     ("createSessionRequest", .ofMembers
      [("fields", .array
        [.ofMembers
          [("external", .ofMembers
            [("name", .string "file"), ("filename", .string filename), ("put", .object []),
             ("size", .int size)])]])])]

/-- The string at a path of a reply. -/
def find (path : List String) (body : ByteArray) : Except ClientError String :=
  match Json.ofBytes? body with
  | none => .error (.payload .notJson)
  | some value =>
    match (value.at? path).bind Json.string? with
    | some s => .ok s
    | none => .error (.uploadReply (pathText path))

/-- The string at a path of the reply from an address. -/
def findInReply (path : List String) (url : String) (reply : Reply) : Except ClientError String :=
  match reply.read url with
  | .error e => .error e
  | .ok body => find path body

end Upload

/-- How far an upload is. -/
inductive Upload where
  /-- The file has to be announced. -/
  | announce (data : ByteArray) (filename : String)
  /-- The address of the bytes has to be read. -/
  | readAddress (data : ByteArray) (url : String) (reply : Reply)
  /-- The bytes have to be sent. -/
  | put (data : ByteArray) (url : String)
  /-- The id of the photo has to be read. -/
  | readPhoto (url : String) (reply : Reply)
  /-- The upload has come to its end: the id of the photo. -/
  | done (outcome : Except ClientError String)

namespace Upload

/-- One step of an upload. -/
def step (c : Client) : Upload → Client × Upload
  | .announce data filename =>
    let url := c.config.uploadUrl
    let (transport, reply) :=
      c.transport.upload url formType (announcement filename data.size).text.toUTF8
    ({ c with transport := transport }, .readAddress data url reply)
  | .readAddress data url reply =>
    match findInReply addressPath url reply with
    | .ok address => (c, .put data address)
    | .error e => (c, .done (.error e))
  | .put data url =>
    let (transport, reply) := c.transport.upload url bytesType data
    ({ c with transport := transport }, .readPhoto url reply)
  | .readPhoto url reply => (c, .done (findInReply photoPath url reply))
  | .done outcome => (c, .done outcome)

/-- A bound on the steps that are left. -/
def remaining : Upload → Nat
  | .announce .. => 4
  | .readAddress .. => 3
  | .put .. => 2
  | .readPhoto .. => 1
  | .done _ => 0

end Upload

end LiteChat
