import Dvt.Kafka.Chunks
import Dvt.Library.Runs

/-! The Dask reader of a plan: receipts, the delivery barrier and the published summary. -/

namespace Dvt.Kafka

open Library ChunkReceipt

structure ReadSummary where
  topic : String
  groupId : String
  partitions : List PartitionOffsets
  readId : Option String := none
  clusterId : Option String := none
  connectionId : Option String := none
  isolationLevel : IsolationLevel := .readCommitted
  messagesRead : Option ℕ := none
  bytesRead : Option ℕ := none
  stopReason : Option StopReason := none

inductive Record
  | read (number : ℕ) (messages : List RawMessage)
  | replay (number : ℕ) (messages : List RawMessage)
  | deliver (number : ℕ)
  | publish (summary : ReadSummary)
  | invalidate

structure Reader where
  receipts : Dict ℕ ChunkReceipt := Dict.empty
  delivered : List ℕ := []
  failed : Bool := false
  published : Bool := false
  calls : ℕ := 0
  log : List Record := []

/-- The calls on a reader; each holds its lock throughout. -/
inductive ReaderEvent
  | read (number : ℕ) (interrupted : Bool)
  | deliver (number : ℕ) (cancelled publishFails : Bool)
  | finish (cancelled publishFails : Bool)
  | invalidate

def totals (offsets : List PartitionOffsets) : Dict ℕ PartitionOffsets :=
  offsets.foldl (fun totals offset =>
    totals.set offset.partition (mergeOffsets (totals.get? offset.partition) offset)) Dict.empty

section

variable (gateway : Gateway) (plan : ReadPlan) (fingerprint : List RawMessage → String)

def replayRead (calls : ℕ) (offset : PartitionOffsets) : Except ReadError ReadBatch :=
  match plan.ranges.find? fun r => r.topicPartition.partition = offset.partition with
  | none => .error .gateway
  | some r =>
    if h : offset.startOffset ≤ offset.nextOffset then
      gateway calls {
        offsetRange := ⟨r.topicPartition, offset.startOffset, offset.nextOffset, h⟩
        isolationLevel := plan.isolationLevel
        maxRecords := offset.messageCount
        maxBytes := some offset.payloadBytes
        totalMaxBytes := plan.limits.maxBytes
        targetBytes := offset.payloadBytes + 1
        maxMessageBytes := plan.limits.maxMessageBytes }
    else .error .gateway

def replayReads : List PartitionOffsets → ℕ → Except ReadError (List RawMessage)
  | [], _ => .ok []
  | offset :: offsets, calls =>
    match replayRead gateway plan calls offset, replayReads offsets (calls + 1) with
    | .ok batch, .ok messages => .ok (batch.messages ++ messages)
    | .error error, _ => .error error
    | _, .error error => .error error

def replay (receipt : ChunkReceipt) (calls : ℕ) : Except ReadError (List RawMessage) :=
  match replayReads gateway plan receipt.offsets calls with
  | .error error => .error error
  | .ok messages =>
    if fingerprint messages = receipt.fingerprint then .ok messages else .error .chunkChanged

variable (slots : ℕ)

def Reader.invalidate (s : Reader) : Reader :=
  { s with failed := true, published := false, log := s.log ++ [.invalidate] }

def Reader.inputCursor (s : Reader) : ℕ → Option ReadCursor
  | 0 => some (initialCursor plan)
  | number + 1 => (s.receipts.get? number).map cursor

def Reader.readFirst (s : Reader) (cursor : ReadCursor) (number : ℕ) : Reader :=
  match executeChunk gateway plan fingerprint cursor number s.calls with
  | .error _ => s.invalidate
  | .ok (messages, receipt, calls) =>
    if number = slots - 1 ∧ receipt.cursor.stopReason = none then s.invalidate
    else { s with
      receipts := s.receipts.set number receipt
      calls := calls
      log := s.log ++ [.read number messages] }

def Reader.readAgain (s : Reader) (previous : ChunkReceipt) (number : ℕ) : Reader :=
  match replay gateway plan fingerprint previous s.calls with
  | .error _ => s.invalidate
  | .ok messages =>
    if number = slots - 1 ∧ previous.cursor.stopReason = none then s.invalidate
    else { s with
      receipts := s.receipts.set number previous
      calls := s.calls + previous.offsets.length
      log := s.log ++ [.replay number messages] }

/-- `interrupted`: a cancellation, or a failure to build the frame. -/
def Reader.read (s : Reader) (number : ℕ) (interrupted : Bool) : Reader :=
  match s.inputCursor plan number with
  | none => s
  | some cursor =>
    if slots ≤ number then s
    else if interrupted ∨ s.failed then s.invalidate
    else
      match s.receipts.get? number with
      | none => s.readFirst gateway plan fingerprint slots cursor number
      | some previous => s.readAgain gateway plan fingerprint slots previous number

def Reader.summary (s : Reader) (receipts : List ChunkReceipt) (reason : StopReason) :
    ReadSummary where
  topic := plan.topic
  groupId := plan.groupId
  partitions :=
    let totals := totals (receipts.flatMap offsets)
    (totals.keys.mergeSort fun p q => p ≤ q).filterMap totals.get?
  readId := some plan.readId
  clusterId := plan.clusterId
  connectionId := plan.connectionId
  isolationLevel := plan.isolationLevel
  messagesRead := some (total messageCount s.receipts.values)
  bytesRead := some (total payloadBytes s.receipts.values)
  stopReason := some reason

def Reader.publish (s : Reader) (summary : ReadSummary) (publishFails : Bool) : Reader :=
  let called : Reader := { s with log := s.log ++ [.publish summary] }
  if publishFails then called.invalidate else { called with published := true }

def Reader.finish (s : Reader) (cancelled publishFails : Bool) : Reader :=
  if cancelled ∨ s.failed then s.invalidate
  else if s.receipts.keys.length ≠ slots ∨ s.delivered.length ≠ slots then s
  else
    match s.receipts.get? (slots - 1) with
    | none => s.invalidate
    | some terminal =>
      match terminal.cursor.stopReason with
      | none => s.invalidate
      | some reason =>
        if s.published then s
        else
          match (List.range slots).mapM s.receipts.get? with
          | none => s.invalidate
          | some receipts => s.publish (s.summary plan receipts reason) publishFails

def Reader.deliver (s : Reader) (number : ℕ) : Reader :=
  { s with
    delivered := if number ∈ s.delivered then s.delivered else s.delivered ++ [number]
    log := s.log ++ [.deliver number] }

def Reader.step (s : Reader) : ReaderEvent → Reader
  | .read number interrupted => s.read gateway plan fingerprint slots number interrupted
  | .deliver number cancelled publishFails =>
    if (s.receipts.get? number).isSome then
      (s.deliver number).finish plan slots cancelled publishFails
    else s
  | .finish cancelled publishFails => s.finish plan slots cancelled publishFails
  | .invalidate => s.invalidate

end

def Record.firstRead : Record → List RawMessage
  | .read _ messages => messages
  | _ => []

def Record.readNumber : Record → List ℕ
  | .read number _ => [number]
  | _ => []

def firstReads (log : List Record) : List RawMessage := log.flatMap Record.firstRead

def readNumbers (log : List Record) : List ℕ := log.flatMap Record.readNumber

end Dvt.Kafka
