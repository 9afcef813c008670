import Dvt.Library.Dict
import Dvt.Library.OffsetLog
import Dvt.Library.Totals

/-! The read plans of a Kafka consumption, their limits and their gateway. -/

namespace Dvt.Kafka

open Library

structure TopicPartition where
  topic : String
  partition : ℕ
  deriving DecidableEq, Repr

structure OffsetRange where
  topicPartition : TopicPartition
  start : ℕ
  stop : ℕ
  start_le : start ≤ stop
  deriving DecidableEq

structure ReadLimits where
  maxMessages : Option ℕ := some 100000
  maxBytes : Option ℕ := some 67108864
  rowsPerPartition : ℕ := 10000
  targetPartitionBytes : ℕ := 8388608
  maxMessageBytes : ℕ := 16777216
  maxMessages_pos : ∀ n ∈ maxMessages, 0 < n := by decide
  maxBytes_pos : ∀ n ∈ maxBytes, 0 < n := by decide
  rowsPerPartition_pos : 0 < rowsPerPartition := by decide
  targetPartitionBytes_pos : 0 < targetPartitionBytes := by decide
  maxMessageBytes_pos : 0 < maxMessageBytes := by decide

inductive IsolationLevel
  | readCommitted | readUncommitted
  deriving DecidableEq, Repr

inductive StopReason
  | snapshotExhausted | maxMessages | maxBytes
  deriving DecidableEq, Repr

structure ReadPlan where
  readId : String
  topic : String
  groupId : String
  ranges : List OffsetRange
  limits : ReadLimits
  isolationLevel : IsolationLevel := .readCommitted
  clusterId : Option String := none
  connectionId : Option String := none
  sameTopic : ∀ r ∈ ranges, r.topicPartition.topic = topic
  distinct : (ranges.map OffsetRange.topicPartition).Nodup

structure RawMessage where
  topicPartition : TopicPartition
  offset : ℕ
  timestampMs : Option ℤ
  timestampType : Option String
  key : Option (List UInt8)
  value : Option (List UInt8)
  headers : List (String × Option (List UInt8)) := []
  deriving DecidableEq

def RawMessage.payloadBytes (message : RawMessage) : ℕ :=
  (message.key.getD []).length + (message.value.getD []).length +
    total (fun header => header.1.utf8ByteSize + (header.2.getD []).length) message.headers

def payloadTotal (messages : List RawMessage) : ℕ := total RawMessage.payloadBytes messages

lemma payloadTotal_append (xs ys : List RawMessage) :
    payloadTotal (xs ++ ys) = payloadTotal xs + payloadTotal ys :=
  total_append ..

structure ReadBatch where
  messages : List RawMessage
  nextPosition : ℕ
  byteLimitReached : Bool := false

structure PartitionPosition where
  topicPartition : TopicPartition
  nextOffset : ℕ
  deriving DecidableEq, Repr

structure ReadCursor where
  positions : List PartitionPosition
  remainingMessages : Option ℕ
  remainingBytes : Option ℕ
  nextPartitionIndex : ℕ := 0
  stopReason : Option StopReason := none
  deriving DecidableEq, Repr

structure PartitionOffsets where
  partition : ℕ
  nextOffset : ℕ
  startOffset : ℕ
  lastMessageOffset : ℕ
  messageCount : ℕ
  payloadBytes : ℕ
  deriving DecidableEq, Repr

structure ChunkReceipt where
  readId : String
  partNumber : ℕ
  offsets : List PartitionOffsets
  messageCount : ℕ
  payloadBytes : ℕ
  fingerprint : String
  cursor : ReadCursor

structure ReadRequest where
  offsetRange : OffsetRange
  isolationLevel : IsolationLevel
  maxRecords : ℕ
  maxBytes : Option ℕ
  totalMaxBytes : Option ℕ
  targetBytes : ℕ
  maxMessageBytes : ℕ

inductive ReadError
  | gateway | noProgress | chunkChanged | cancelled
  deriving DecidableEq, Repr

/-- By the number of the call, so that each may be answered in its own way. -/
abbrev Gateway := ℕ → ReadRequest → Except ReadError ReadBatch

structure TopicLog where
  log : TopicPartition → OffsetLog RawMessage.offset
  located : ∀ tp, ∀ m ∈ (log tp).entries, m.topicPartition = tp

def TopicLog.visible (topicLog : TopicLog) (tp : TopicPartition) (a b : ℕ) : List RawMessage :=
  (topicLog.log tp).slice a b

structure Asked (plan : ReadPlan) (request : ReadRequest) : Prop where
  planned : ∃ r ∈ plan.ranges, request.offsetRange.topicPartition = r.topicPartition ∧
    r.start ≤ request.offsetRange.start ∧ request.offsetRange.stop = r.stop
  nonempty : request.offsetRange.start < request.offsetRange.stop
  maxRecords : 0 < request.maxRecords
  targetBytes : 0 < request.targetBytes
  isolationLevel : request.isolationLevel = plan.isolationLevel
  totalMaxBytes : request.totalMaxBytes = plan.limits.maxBytes
  maxMessageBytes : request.maxMessageBytes = plan.limits.maxMessageBytes

/-- The read contract: the visible messages up to the next position, within the limits. -/
structure Answers (topicLog : TopicLog) (request : ReadRequest) (batch : ReadBatch) : Prop where
  start_le : request.offsetRange.start ≤ batch.nextPosition
  le_stop : batch.nextPosition ≤ request.offsetRange.stop
  messages : batch.messages = topicLog.visible request.offsetRange.topicPartition
    request.offsetRange.start batch.nextPosition
  records : batch.messages.length ≤ request.maxRecords
  bytes : ∀ n ∈ request.maxBytes, payloadTotal batch.messages ≤ n
  messageBytes : ∀ m ∈ batch.messages, m.payloadBytes ≤ request.maxMessageBytes
  progress : batch.byteLimitReached = false → request.offsetRange.start < batch.nextPosition

def Gateway.Faithful (gateway : Gateway) (plan : ReadPlan) (topicLog : TopicLog) : Prop :=
  ∀ n request batch, Asked plan request → gateway n request = .ok batch →
    Answers topicLog request batch

def Gateway.Available (gateway : Gateway) (plan : ReadPlan) : Prop :=
  ∀ n request, Asked plan request → ∃ batch, gateway n request = .ok batch

def initialCursor (plan : ReadPlan) : ReadCursor where
  positions := plan.ranges.map fun r => ⟨r.topicPartition, r.start⟩
  remainingMessages := plan.limits.maxMessages
  remainingBytes := plan.limits.maxBytes

def offsetCount (plan : ReadPlan) : ℕ := total (fun r => r.stop - r.start) plan.ranges

def readSlotCount (plan : ReadPlan) (maxPlanTasks : ℕ) : Option ℕ :=
  let limits := plan.limits
  let count := limits.maxMessages.elim (offsetCount plan) (min (offsetCount plan))
  let size := limits.maxBytes.elim (count * limits.maxMessageBytes)
    (min (count * limits.maxMessageBytes))
  let slots :=
    if count = 0 then 1
    else min count ((count + limits.rowsPerPartition - 1) / limits.rowsPerPartition +
      (size + limits.targetPartitionBytes - 1) / limits.targetPartitionBytes + 1)
  if maxPlanTasks < slots then none else some slots

end Dvt.Kafka
