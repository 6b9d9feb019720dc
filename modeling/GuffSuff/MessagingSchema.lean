import GuffSuff.ReadCommitted.Embedding
import GuffSuff.Services

/-! The messaging system around the tables of the backend: timestamps of the
conversations, read states, and what the calls on them answer. -/

namespace GuffSuff

open ReadCommitted

namespace Messaging

/-- The functions outside the repository that messaging and its requests use.
`uuid` reads the text of an identifier and `uuidText` writes it; `datetime` is
what `z.string().datetime()` accepts and `timestamptz` what PostgreSQL reads. -/
structure Platform where
  services : GuffSuff.Platform
  uuid : String → Option Uuid
  uuidText : Uuid → String
  datetime : String → Bool
  timestamptz : String → Option Nat

structure ConversationTimes where
  createdAt : Nat
  updatedAt : Nat
  deriving DecidableEq, Repr

structure MessageReadState where
  id : Uuid
  conversationId : Uuid
  userId : Uuid
  lastReadEnvelopeId : Option Uuid
  lastReadAt : Nat
  deriving DecidableEq, Repr

instance : Keyed MessageReadState Uuid := ⟨MessageReadState.id⟩

@[simp] theorem MessageReadState.key_eq (r : MessageReadState) : (Keyed.key r : Uuid) = r.id := rfl

structure Db where
  core : GuffSuff.Db
  conversationTimes : Uuid → ConversationTimes
  messageReadStates : List MessageReadState

/-- Row locks and index entries. A pair of participants is kept in order. -/
inductive Key where
  | backend (key : GuffSuff.Key)
  | conversation (id : Uuid)
  | conversationPair (least greatest : Uuid)
  | member (id : Uuid)
  | memberPair (conversation user : Uuid)
  | readState (id : Uuid)
  | readStatePair (conversation user : Uuid)
  deriving DecidableEq

inductive Failure where
  | backend (failure : GuffSuff.Failure)
  | notFound (message : String)
  | notNullViolation (column : String)
  | protocolViolation (message : String)
  deriving DecidableEq, Repr

structure ConversationRow where
  columns : DirectConversation
  times : ConversationTimes
  deriving DecidableEq, Repr

/-- No statement of the repository writes `read_at`. -/
structure RecipientDeviceStatus where
  recipientDeviceId : Uuid
  deliveryStatus : DeliveryStatus
  deliveredAt : Option Nat
  readAt : Option Nat
  deriving DecidableEq, Repr

structure EnvelopeStatus where
  envelopeId : Uuid
  conversationId : Uuid
  serverAcceptedAt : Nat
  expiresAt : Nat
  recipientDevices : List RecipientDeviceStatus
  deriving DecidableEq, Repr

inductive Value where
  | backend (value : GuffSuff.Value)
  | pending (rows : List GuffSuff.MessageEnvelopeService.PendingEnvelope)
  | conversation (columns : DirectConversation) (createdAt : Nat)
  | conversations (rows : List ConversationRow)
  | conversationDetails (row : ConversationRow)
  | read (conversationId lastReadEnvelopeId : String)
  | status (status : EnvelopeStatus)
  deriving DecidableEq, Repr

abbrev Answer := Except Failure Value

inductive Event where
  | backend (event : GuffSuff.Event)
  | conversationCreated (row : DirectConversation) (members : List ConversationMember) (now : Nat)
  | readAcknowledged (state : MessageReadState)
  deriving DecidableEq

abbrev Program := ReadCommitted.Program Db Key Uuid Event Answer

def throw (e : Failure) : Program := .rollback (.ret (.error e))

namespace Db

def pairTaken (db : Db) (least greatest : Uuid) : Bool :=
  db.core.directConversations.any fun c =>
    min c.participant1UserId c.participant2UserId = least &&
      max c.participant1UserId c.participant2UserId = greatest

def memberPairTaken (db : Db) (conversation user : Uuid) : Bool :=
  db.core.conversationMembers.any fun m => m.conversationId = conversation && m.userId = user

def readStatePairTaken (db : Db) (conversation user : Uuid) : Bool :=
  db.messageReadStates.any fun r => r.conversationId = conversation && r.userId = user

def insertConversation (c : DirectConversation) (now : Nat) (db : Db) : Db :=
  { db with
    core := { db.core with directConversations := db.core.directConversations ++ [c] }
    conversationTimes := fun id =>
      if id = c.id then { createdAt := now, updatedAt := now } else db.conversationTimes id }

def insertMember (m : ConversationMember) (db : Db) : Db :=
  { db with core := { db.core with conversationMembers := db.core.conversationMembers ++ [m] } }

/-- `INSERT .. ON CONFLICT (conversation_id, user_id) DO UPDATE SET ..`. -/
def upsertReadState (r : MessageReadState) (db : Db) : Db :=
  { db with messageReadStates :=
      if db.readStatePairTaken r.conversationId r.userId then
        db.messageReadStates.map fun s =>
          if s.conversationId = r.conversationId ∧ s.userId = r.userId then
            { s with lastReadEnvelopeId := r.lastReadEnvelopeId, lastReadAt := r.lastReadAt }
          else s
      else db.messageReadStates ++ [r] }

end Db

/-- The tables of the backend inside those of messaging. -/
def backendTables : Embedding GuffSuff.Db GuffSuff.Key GuffSuff.Event Db Key Event where
  view := Db.core
  put core db := { db with core }
  key := .backend
  event := .backend

def ofAnswer : GuffSuff.Answer → Answer
  | .ok value => .ok (.backend value)
  | .error failure => .error (.backend failure)

def ofBackend (p : GuffSuff.Program) : Program :=
  p.embed backendTables fun r => .ret (ofAnswer r)

/-- A query parameter for a column of type `uuid`: `undefined` is sent as
`NULL`, which no row compares equal to. -/
def uuidParameter (pf : Platform) (value : Option String) (k : Option Uuid → Program) : Program :=
  match value with
  | none => k none
  | some text =>
    match pf.uuid text with
    | none => throw (.backend (.dataException "uuid"))
    | some id => k (some id)

end Messaging

end GuffSuff
