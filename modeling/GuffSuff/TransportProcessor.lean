import GuffSuff.MessageEnvelopeService

/-! The jobs of the transport worker: offline retries and expiry. -/

namespace GuffSuff

open ReadCommitted

namespace TransportProcessor

def maxAttempts : Nat := 5
def batchLimit : Nat := 50

def isRetryable (now : Nat) (db : Db) (rd : MessageRecipientDevice) : Bool :=
  (lookup db.messageEnvelopes rd.envelopeId).any (fun e => now < e.expiresAt) &&
    rd.deliveryStatus.isPending && rd.deliveryAttemptsCount < maxAttempts

def retryable (now : Nat) (db : Db) : List Uuid :=
  (db.messageRecipientDevices.filter (isRetryable now db)).map MessageRecipientDevice.id

/-- `LIMIT 50` without an order: any rows of the result, as many as there are up to the limit. -/
def selectsBatch (now : Nat) (db : Db) (ids : List Uuid) : Bool :=
  decide ids.Nodup && ids.all (· ∈ retryable now db) &&
    ids.length == min batchLimit (retryable now db).length

/-- One `UPDATE .. WHERE id = $1` for each selected row, whatever its status is by then. -/
def retryEach (ids : List Uuid) (k : Program) : Program :=
  match ids with
  | [] => k
  | id :: ids =>
    .now fun now =>
    .lock (.recipient id) fun _ =>
    .write (Write.retryRecipient id now).apply <|
    .commit (.deliveryRetried id now) <|
    retryEach ids k

def processOfflineMessageRetries : Program :=
  .now fun now =>
  .observe (selectsBatch now) (fun _ ids => .retriesSelected ids) fun _ ids =>
  retryEach ids <|
  .ret (.ok .unit)

def isExpired (now : Nat) (db : Db) (rd : MessageRecipientDevice) : Bool :=
  (lookup db.messageEnvelopes rd.envelopeId).any (fun e => e.expiresAt ≤ now) &&
    rd.deliveryStatus.isPending

def expired (now : Nat) (db : Db) : List Uuid :=
  (db.messageRecipientDevices.filter (isExpired now db)).map MessageRecipientDevice.id

def stillExpired (now : Nat) (id : Uuid) (db : Db) : Bool :=
  (lookup db.messageRecipientDevices id).any (isExpired now db)

def processExpiredEnvelopeCleanup : Program :=
  .now fun now =>
  .select (exactly (expired now)) fun found =>
  Program.lockEach Key.recipient (stillExpired now) [] found fun ids =>
  .write (Write.expireRecipients ids now).apply <|
  .commit (.deliveriesExpired ids now) <|
  .ret (.ok .unit)

end TransportProcessor

end GuffSuff
