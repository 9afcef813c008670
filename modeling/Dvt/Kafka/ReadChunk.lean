import Dvt.Kafka.Consumption

/-! One chunk of a read: the round robin over the partitions, and its end. -/

namespace Dvt.Kafka

open Library

structure ReadState where
  positions : List PartitionPosition
  remainingMessages : Option ℕ
  remainingBytes : Option ℕ
  index : ℕ
  reason : Option StopReason
  messages : List RawMessage := []
  offsets : List PartitionOffsets := []
  payloadBytes : ℕ := 0
  calls : ℕ

inductive Iteration
  | exit (s : ReadState)
  | next (s : ReadState)
  | raise (error : ReadError)

section

variable (gateway : Gateway) (plan : ReadPlan)

def ReadState.exhausted (s : ReadState) : Bool :=
  (s.positions.zip plan.ranges).all fun e => e.2.stop ≤ e.1.nextOffset

def ReadState.full (s : ReadState) : Bool :=
  plan.limits.rowsPerPartition ≤ s.messages.length ∨
    plan.limits.targetPartitionBytes ≤ s.payloadBytes

def ReadState.request (s : ReadState) (position : PartitionPosition) (original : OffsetRange)
    (h : ¬ original.stop ≤ position.nextOffset) : ReadRequest :=
  let rows := plan.limits.rowsPerPartition - s.messages.length
  { offsetRange := ⟨position.topicPartition, position.nextOffset, original.stop, by omega⟩
    isolationLevel := plan.isolationLevel
    maxRecords := s.remainingMessages.elim rows (min rows)
    maxBytes := s.remainingBytes
    totalMaxBytes := plan.limits.maxBytes
    targetBytes := plan.limits.targetPartitionBytes - s.payloadBytes
    maxMessageBytes := plan.limits.maxMessageBytes }

def batchOffsets (position : PartitionPosition) (batch : ReadBatch) : List PartitionOffsets :=
  match batch.messages.getLast? with
  | none => []
  | some last =>
    [{ partition := position.topicPartition.partition
       startOffset := position.nextOffset
       nextOffset := last.offset + 1
       lastMessageOffset := last.offset
       messageCount := batch.messages.length
       payloadBytes := payloadTotal batch.messages }]

def ReadState.accept (s : ReadState) (position : PartitionPosition) (batch : ReadBatch) :
    ReadState where
  positions := s.positions.set s.index ⟨position.topicPartition, batch.nextPosition⟩
  remainingMessages := s.remainingMessages.map (· - batch.messages.length)
  remainingBytes := s.remainingBytes.map (· - payloadTotal batch.messages)
  index := (s.index + 1) % s.positions.length
  reason := if batch.byteLimitReached then some .maxBytes else none
  messages := s.messages ++ batch.messages
  offsets := s.offsets ++ batchOffsets position batch
  payloadBytes := s.payloadBytes + payloadTotal batch.messages
  calls := s.calls + 1

def ReadState.iterate (s : ReadState) : Iteration :=
  if s.reason ≠ none then .exit s
  else if s.exhausted plan then .exit { s with reason := some .snapshotExhausted }
  else if s.remainingMessages = some 0 then .exit { s with reason := some .maxMessages }
  else if s.remainingBytes = some 0 then .exit { s with reason := some .maxBytes }
  else if s.full plan then .exit s
  else
    match s.positions[s.index]?, plan.ranges[s.index]? with
    | some position, some original =>
      if h : original.stop ≤ position.nextOffset then
        .next { s with index := (s.index + 1) % s.positions.length }
      else
        match gateway s.calls (s.request plan position original h) with
        | .error error => .raise error
        | .ok batch =>
          if batch.nextPosition ≤ position.nextOffset ∧ batch.byteLimitReached = false then
            .raise .noProgress
          else .next (s.accept position batch)
    | _, _ => .raise .gateway

def ReadState.loop : ℕ → ReadState → Except ReadError ReadState
  | 0, s => .ok s
  | fuel + 1, s =>
    match s.iterate gateway plan with
    | .exit s' => .ok s'
    | .next s' => loop fuel s'
    | .raise error => .error error

def remainingOffsets (positions : List PartitionPosition) : ℕ :=
  total (fun e => e.2.stop - e.1.nextOffset) (positions.zip plan.ranges)

def ReadState.start (cursor : ReadCursor) (calls : ℕ) : ReadState where
  positions := cursor.positions
  remainingMessages := cursor.remainingMessages
  remainingBytes := cursor.remainingBytes
  index := cursor.nextPartitionIndex
  reason := cursor.stopReason
  calls := calls

def ReadState.cursor (s : ReadState) : ReadCursor where
  positions := s.positions
  remainingMessages := s.remainingMessages
  remainingBytes := s.remainingBytes
  nextPartitionIndex := s.index
  stopReason := s.reason

/-- `ReadKafkaChunk.execute` without cancellation; the last component numbers the next call. -/
def executeChunk (fingerprint : List RawMessage → String) (cursor : ReadCursor) (partNumber calls : ℕ) :
    Except ReadError (List RawMessage × ChunkReceipt × ℕ) :=
  let fuel := (remainingOffsets plan cursor.positions + 1) * (cursor.positions.length + 1)
  match (ReadState.start cursor calls).loop gateway plan fuel with
  | .error error => .error error
  | .ok s => .ok (s.messages, {
      readId := plan.readId
      partNumber
      offsets := s.offsets
      messageCount := s.messages.length
      payloadBytes := s.payloadBytes
      fingerprint := fingerprint s.messages
      cursor := s.cursor }, s.calls)

structure Open (s : ReadState) : Prop where
  reason : s.reason = none
  exhausted : s.exhausted plan = false
  messages : s.remainingMessages ≠ some 0
  bytes : s.remainingBytes ≠ some 0

/-- The turn of the iteration asks the gateway. -/
structure Asks (s : ReadState) (position : PartitionPosition) (original : OffsetRange) : Prop
    extends Open plan s where
  full : s.full plan = false
  positions : s.positions[s.index]? = some position
  ranges : plan.ranges[s.index]? = some original
  more : ¬ original.stop ≤ position.nextOffset

inductive Iterates (s : ReadState) : Iteration → Prop
  | stopped (hreason : s.reason ≠ none) : Iterates s (.exit s)
  | exhausted (hreason : s.reason = none) (h : s.exhausted plan = true) :
      Iterates s (.exit { s with reason := some .snapshotExhausted })
  | messages (hreason : s.reason = none) :
      Iterates s (.exit { s with reason := some .maxMessages })
  | bytes (hreason : s.reason = none) : Iterates s (.exit { s with reason := some .maxBytes })
  | full (hopen : Open plan s) (hfull : s.full plan = true) : Iterates s (.exit s)
  | skip {position : PartitionPosition} {original : OffsetRange} (hopen : Open plan s)
      (hposition : s.positions[s.index]? = some position)
      (horiginal : plan.ranges[s.index]? = some original)
      (hdone : original.stop ≤ position.nextOffset) :
      Iterates s (.next { s with index := (s.index + 1) % s.positions.length })
  | accept {position : PartitionPosition} {original : OffsetRange} {batch : ReadBatch}
      (hasks : Asks plan s position original)
      (hbatch : gateway s.calls (s.request plan position original hasks.more) = .ok batch) :
      Iterates s (.next (s.accept position batch))
  | failed {position : PartitionPosition} {original : OffsetRange} {error : ReadError}
      (hasks : Asks plan s position original)
      (herror : gateway s.calls (s.request plan position original hasks.more) = .error error) :
      Iterates s (.raise error)
  | stuck {position : PartitionPosition} {original : OffsetRange} {batch : ReadBatch}
      (hasks : Asks plan s position original)
      (hbatch : gateway s.calls (s.request plan position original hasks.more) = .ok batch)
      (hstuck : batch.nextPosition ≤ position.nextOffset ∧ batch.byteLimitReached = false) :
      Iterates s (.raise .noProgress)
  | outside (hopen : Open plan s)
      (h : s.positions[s.index]? = none ∨ plan.ranges[s.index]? = none) :
      Iterates s (.raise .gateway)

lemma ReadState.iterates (s : ReadState) : Iterates gateway plan s (s.iterate gateway plan) := by
  rw [ReadState.iterate]
  split
  · next hreason => exact .stopped hreason
  · next hreason =>
    have hreason : s.reason = none := not_not.mp hreason
    split
    · next he => exact .exhausted hreason he
    · next he =>
      split
      · exact .messages hreason
      · next hm =>
        split
        · exact .bytes hreason
        · next hb =>
          have hopen : Open plan s :=
            ⟨hreason, Bool.eq_false_iff.mpr he, hm, hb⟩
          split
          · next hfull => exact .full hopen hfull
          · next hfull =>
            have hfull : s.full plan = false := Bool.eq_false_iff.mpr hfull
            split
            · next position original hposition horiginal =>
              split
              · next hdone => exact .skip hopen hposition horiginal hdone
              · next hmore =>
                have hasks : Asks plan s position original :=
                  ⟨hopen, hfull, hposition, horiginal, hmore⟩
                split
                · next error herror => exact .failed hasks herror
                · next batch hbatch =>
                  split
                  · next hstuck => exact .stuck hasks hbatch hstuck
                  · exact .accept hasks hbatch
            · next hn =>
              refine .outside hopen ?_
              by_contra hboth
              obtain ⟨hposition, horiginal⟩ := not_or.mp hboth
              obtain ⟨position, hposition⟩ := Option.ne_none_iff_exists'.mp hposition
              obtain ⟨original, horiginal⟩ := Option.ne_none_iff_exists'.mp horiginal
              exact hn position original hposition horiginal

end

end Dvt.Kafka
