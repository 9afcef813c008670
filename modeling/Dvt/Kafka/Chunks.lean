import Dvt.Kafka.Delivery
import Dvt.Kafka.GatewayRead
import Mathlib.Order.Lattice.Nat

/-! The loop of a chunk ends, and the chunks of a plan follow one another by their cursors. -/

namespace Dvt.Kafka

open Library List ReadState

section

variable (plan : ReadPlan)

def Busy (positions : List PartitionPosition) (i : ℕ) : Prop :=
  ∃ p r, positions[i]? = some p ∧ plan.ranges[i]? = some r ∧ p.nextOffset < r.stop

noncomputable def turns (s : ReadState) : ℕ :=
  sInf {k | Busy plan s.positions ((s.index + k) % s.positions.length)}

noncomputable def work (s : ReadState) : ℕ :=
  remainingOffsets plan s.positions * s.positions.length + turns plan s

variable {plan} {s : ReadState}

lemma exists_busy (h : s.exhausted plan = false) :
    ∃ i < s.positions.length, Busy plan s.positions i := by
  rw [exhausted, all_eq_false] at h
  obtain ⟨⟨p, r⟩, hmem, hmore⟩ := h
  obtain ⟨i, hi⟩ := mem_iff_getElem?.mp hmem
  obtain ⟨hp, hr⟩ := List.getElem?_zip_eq_some.mp hi
  refine ⟨i, (List.getElem?_eq_some_iff.mp hp).1, p, r, hp, hr, ?_⟩
  simpa using hmore

variable (hin : s.index < s.positions.length)

include hin

variable (h : s.exhausted plan = false)

include h

lemma exists_turn :
    ∃ k < s.positions.length, Busy plan s.positions ((s.index + k) % s.positions.length) := by
  obtain ⟨i, hi, hb⟩ := exists_busy h
  by_cases hle : s.index ≤ i
  · refine ⟨i - s.index, by omega, ?_⟩
    rwa [Nat.add_sub_cancel' hle, Nat.mod_eq_of_lt hi]
  · refine ⟨i + s.positions.length - s.index, by omega, ?_⟩
    rwa [show s.index + (i + s.positions.length - s.index) = i + s.positions.length by omega,
      Nat.add_mod_right, Nat.mod_eq_of_lt hi]

lemma turns_lt : turns plan s < s.positions.length := by
  obtain ⟨k, hk, hb⟩ := exists_turn hin h
  exact (Nat.sInf_le hb).trans_lt hk

lemma turns_skip (hi : ¬ Busy plan s.positions s.index) :
    turns plan { s with index := (s.index + 1) % s.positions.length } < turns plan s := by
  obtain ⟨k, _, hb⟩ := exists_turn hin h
  have hmem : Busy plan s.positions ((s.index + turns plan s) % s.positions.length) :=
    Nat.sInf_mem (s := {k | Busy plan s.positions ((s.index + k) % s.positions.length)}) ⟨k, hb⟩
  cases ht : turns plan s with
  | zero =>
    rw [ht, Nat.add_zero, Nat.mod_eq_of_lt hin] at hmem
    exact absurd hmem hi
  | succ m =>
    rw [ht] at hmem
    refine Nat.lt_succ_of_le (Nat.sInf_le ?_)
    rw [Set.mem_ofPred_eq, Nat.mod_add_mod]
    rwa [Nat.add_assoc, Nat.add_comm 1 m]

end

section

variable {gateway : Gateway} {plan : ReadPlan} {topicLog : TopicLog}

structure Reads (plan : ReadPlan) (topicLog : TopicLog) (before : List RawMessage)
    (offsets : List PartitionOffsets) (s : ReadState) : Prop where
  tracks : Tracks plan topicLog (before ++ s.messages) (offsets ++ s.offsets) s.cursor
  payload : s.payloadBytes = payloadTotal s.messages

variable {before : List RawMessage} {offsets : List PartitionOffsets} {s s' : ReadState}

lemma remainingOffsets_eq_zero (hexh : s.exhausted plan = true) :
    remainingOffsets plan s.positions = 0 := by
  rw [remainingOffsets, total_eq_zero]
  intro e he
  have hdone := all_eq_true.mp hexh e he
  exact Nat.sub_eq_zero_of_le (of_decide_eq_true hdone)

lemma remainingOffsets_pos (he : s.exhausted plan = false) :
    0 < remainingOffsets plan s.positions := by
  obtain ⟨i, _, p, r, hp, hr, hlt⟩ := exists_busy he
  refine Nat.pos_of_ne_zero fun hz => ?_
  rw [remainingOffsets, total_eq_zero] at hz
  have hmem := mem_of_getElem? (List.getElem?_zip_eq_some (z := (p, r)).mpr ⟨hp, hr⟩)
  have := hz (p, r) hmem
  dsimp only at this
  omega

lemma Reads.stop (h : Reads plan topicLog before offsets s) (reason : StopReason)
    (hreason : reason = .snapshotExhausted → remainingOffsets plan s.positions = 0) :
    Reads plan topicLog before offsets { s with reason := some reason } where
  tracks := { h.tracks with exhausted := fun hstop => hreason (Option.some.inj hstop) }
  payload := h.payload

lemma Reads.next (hfaithful : gateway.Faithful plan topicLog)
    (h : Reads plan topicLog before offsets s) (hn : Iterates gateway plan s (.next s')) :
    Reads plan topicLog before offsets s' := by
  cases hn with
  | skip hopen hposition horiginal hdone => exact ⟨h.tracks.skip hopen.reason, h.payload⟩
  | @accept position original batch hasks hbatch =>
    have ha := h.tracks.accept hasks.positions hasks.ranges
      (hfaithful _ _ _ (asked_request h.tracks hasks) hbatch)
    rw [append_assoc, append_assoc] at ha
    refine ⟨ha, ?_⟩
    change s.payloadBytes + payloadTotal batch.messages = payloadTotal (s.messages ++ batch.messages)
    rw [payloadTotal_append, h.payload]

structure Finished (plan : ReadPlan) (s : ReadState) : Prop where
  full : s.reason = none → Open plan s ∧ s.full plan = true

lemma Reads.exit (h : Reads plan topicLog before offsets s)
    (hexit : Iterates gateway plan s (.exit s')) :
    Reads plan topicLog before offsets s' ∧ Finished plan s' := by
  cases hexit with
  | stopped hreason => exact ⟨h, ⟨fun hn => absurd hn hreason⟩⟩
  | exhausted hreason he =>
    exact ⟨h.stop _ fun _ => remainingOffsets_eq_zero he, ⟨nofun⟩⟩
  | messages hreason | bytes hreason => exact ⟨h.stop _ nofun, ⟨nofun⟩⟩
  | full hopen hfull => exact ⟨h, ⟨fun _ => ⟨hopen, hfull⟩⟩⟩

lemma index_lt (h : Reads plan topicLog before offsets s) (he : s.exhausted plan = false) :
    s.index < s.positions.length := by
  obtain ⟨i, _, p, r, hp, hr, _⟩ := exists_busy he
  have hne : plan.ranges ≠ [] := ne_nil_of_mem (mem_of_getElem? hr)
  exact (h.tracks.index hne).trans_eq h.tracks.length.symm

variable (hfaithful : gateway.Faithful plan topicLog)

include hfaithful

lemma work_next (h : Reads plan topicLog before offsets s) (hn : Iterates gateway plan s (.next s'))
    (hopen' : Open plan s') : work plan s' < work plan s := by
  have h' := h.next hfaithful hn
  have ht' := turns_lt (index_lt h' hopen'.exhausted) hopen'.exhausted
  cases hn with
  | @skip position original hopen hposition horiginal hdone =>
    have hi : ¬ Busy plan s.positions s.index := by
      rintro ⟨p, r, hp, hr, hlt⟩
      cases hposition.symm.trans hp
      cases horiginal.symm.trans hr
      exact Nat.not_lt.mpr hdone hlt
    have hskip := turns_skip (index_lt h hopen.exhausted) hopen.exhausted hi
    exact Nat.add_lt_add_left hskip _
  | @accept position original batch hasks hbatch =>
    have ha := asked_request h.tracks hasks
    have hmore := hasks.more
    have hl : batch.byteLimitReached = false := by
      have hreason : (if batch.byteLimitReached then some StopReason.maxBytes else none) = none :=
        hopen'.reason
      split at hreason
      · cases hreason
      · next hl => exact Bool.eq_false_iff.mpr hl
    have hp : position.nextOffset < batch.nextPosition := (hfaithful _ _ _ ha hbatch).progress hl
    have hlt : remainingOffsets plan (s.accept position batch).positions <
        remainingOffsets plan s.positions := by
      have hset := total_zip_set (f := fun e => e.2.stop - e.1.nextOffset)
        (⟨position.topicPartition, batch.nextPosition⟩ : PartitionPosition) hasks.positions hasks.ranges
      rw [remainingOffsets, remainingOffsets, accept]
      dsimp only at hset ⊢
      omega
    have hlen : (s.accept position batch).positions.length = s.positions.length :=
      length_set ..
    rw [work]
    rw [hlen] at ht' ⊢
    -- a whole round is paid for by the offsets that the batch took off
    calc remainingOffsets plan (s.accept position batch).positions * s.positions.length +
          turns plan (s.accept position batch)
        < (remainingOffsets plan (s.accept position batch).positions + 1) * s.positions.length := by
          rw [Nat.succ_mul]
          omega
      _ ≤ remainingOffsets plan s.positions * s.positions.length := Nat.mul_le_mul_right _ hlt
      _ ≤ _ := Nat.le_add_right ..

lemma loop_finished (fuel : ℕ) (s : ReadState)
    (h : Reads plan topicLog before offsets s) (hpos : 0 < fuel)
    (hf : Open plan s → work plan s + 1 < fuel) {final : ReadState}
    (hl : s.loop gateway plan fuel = .ok final) :
    Reads plan topicLog before offsets final ∧ Finished plan final := by
  induction fuel generalizing s with
  | zero => exact absurd hpos (Nat.lt_irrefl 0)
  | succ fuel ih =>
    have hstep := s.iterates gateway plan
    rw [ReadState.loop] at hl
    generalize s.iterate gateway plan = result at hstep hl
    cases result with
    | raise error => cases hl
    | exit s' =>
      cases hl
      exact h.exit hstep
    | next s' =>
      have hopen : Open plan s := by
        cases hstep with
        | skip hopen => exact hopen
        | accept hasks => exact hasks.toOpen
      have hf := hf hopen
      refine ih s' (h.next hfaithful hstep) (by omega) ?_ hl
      intro hopen'
      have hw := work_next hfaithful h hstep hopen'
      omega

lemma loop_available (ha : gateway.Available plan) (fuel : ℕ) (s : ReadState)
    (h : Reads plan topicLog before offsets s) :
    ∃ final, s.loop gateway plan fuel = .ok final := by
  induction fuel generalizing s with
  | zero => exact ⟨s, rfl⟩
  | succ fuel ih =>
    have hstep := s.iterates gateway plan
    rw [ReadState.loop]
    generalize s.iterate gateway plan = result at hstep
    cases result with
    | exit s' => exact ⟨s', rfl⟩
    | next s' => exact ih s' (h.next hfaithful hstep)
    | raise error =>
      exfalso
      cases hstep with
      | failed hasks herror =>
        obtain ⟨batch, hbatch⟩ := ha s.calls _ (asked_request h.tracks hasks)
        rw [herror] at hbatch
        cases hbatch
      | stuck hasks hbatch hstuck =>
        have hp := (hfaithful _ _ _ (asked_request h.tracks hasks) hbatch).progress hstuck.2
        exact Nat.not_lt.mpr hstuck.1 hp
      | outside hopen hm =>
        have hlt := index_lt h hopen.exhausted
        have hlt' : s.index < plan.ranges.length := hlt.trans_eq h.tracks.length
        obtain hm | hm := hm
        · exact Nat.not_le.mpr hlt (List.getElem?_eq_none_iff.mp hm)
        · exact Nat.not_le.mpr hlt' (List.getElem?_eq_none_iff.mp hm)

end

section

variable (gateway : Gateway) (plan : ReadPlan) (fingerprint : List RawMessage → String)

structure Chained where
  messages : List RawMessage
  receipts : List ChunkReceipt
  cursor : ReadCursor
  calls : ℕ

def Chained.offsets (chained : Chained) : List PartitionOffsets :=
  chained.receipts.flatMap ChunkReceipt.offsets

def Chained.start : Chained := ⟨[], [], initialCursor plan, 0⟩

def Chained.read (chained : Chained) (number : ℕ) : Except ReadError Chained :=
  match executeChunk gateway plan fingerprint chained.cursor number chained.calls with
  | .error error => .error error
  | .ok (messages, receipt, calls) =>
    .ok ⟨chained.messages ++ messages, chained.receipts ++ [receipt], receipt.cursor, calls⟩

def readChunks : ℕ → Except ReadError Chained
  | 0 => .ok (Chained.start plan)
  | count + 1 =>
    match readChunks count with
    | .error error => .error error
    | .ok chained => chained.read gateway plan fingerprint count

variable {gateway plan fingerprint} {topicLog : TopicLog} {delivered : List RawMessage}
  {offsets : List PartitionOffsets} {cursor : ReadCursor} {number calls : ℕ}

lemma Reads.start (h : Tracks plan topicLog delivered offsets cursor) (calls : ℕ) :
    Reads plan topicLog delivered offsets (start cursor calls) where
  tracks := by
    change Tracks plan topicLog (delivered ++ []) (offsets ++ []) cursor
    rwa [append_nil, append_nil]
  payload := rfl

structure ChunkRead (plan : ReadPlan) (topicLog : TopicLog) (delivered : List RawMessage)
    (offsets : List PartitionOffsets) (messages : List RawMessage) (receipt : ChunkReceipt) :
    Prop where
  tracks : Tracks plan topicLog (delivered ++ messages) (offsets ++ receipt.offsets) receipt.cursor
  count : receipt.messageCount = messages.length
  bytes : receipt.payloadBytes = payloadTotal messages
  full : receipt.cursor.stopReason = none → plan.limits.rowsPerPartition ≤ messages.length ∨
      plan.limits.targetPartitionBytes ≤ payloadTotal messages
  unread : receipt.cursor.stopReason = none → 0 < remainingOffsets plan receipt.cursor.positions ∧
      receipt.cursor.remainingMessages ≠ some 0

lemma work_start_lt (h : Tracks plan topicLog delivered offsets cursor)
    (hopen : Open plan (start cursor calls)) :
    work plan (start cursor calls) + 1 <
      (remainingOffsets plan cursor.positions + 1) * (cursor.positions.length + 1) := by
  have ht : turns plan (start cursor calls) < cursor.positions.length :=
    turns_lt (index_lt (Reads.start h calls) hopen.exhausted) hopen.exhausted
  have hw : work plan (start cursor calls) =
      remainingOffsets plan cursor.positions * cursor.positions.length +
        turns plan (start cursor calls) := rfl
  rw [Nat.succ_mul, Nat.mul_succ]
  omega

lemma executeChunk_spec (hfaithful : gateway.Faithful plan topicLog)
    (h : Tracks plan topicLog delivered offsets cursor) {messages : List RawMessage}
    {receipt : ChunkReceipt} {calls' : ℕ}
    (hok : executeChunk gateway plan fingerprint cursor number calls =
      .ok (messages, receipt, calls')) :
    ChunkRead plan topicLog delivered offsets messages receipt := by
  rw [executeChunk] at hok
  split at hok
  · cases hok
  · next final hl =>
    cases hok
    obtain ⟨hr, hfinished⟩ := loop_finished hfaithful _ _ (Reads.start h calls)
      (Nat.mul_pos (Nat.succ_pos _) (Nat.succ_pos _)) (work_start_lt h) hl
    refine ⟨hr.tracks, rfl, hr.payload, ?_, ?_⟩
    · intro hn
      have hfull := (hfinished.full hn).2
      rw [full, hr.payload] at hfull
      exact of_decide_eq_true hfull
    · intro hn
      have hopen := (hfinished.full hn).1
      exact ⟨remainingOffsets_pos hopen.exhausted, hopen.messages⟩

variable (fingerprint) in
lemma executeChunk_available (hfaithful : gateway.Faithful plan topicLog)
    (ha : gateway.Available plan) (h : Tracks plan topicLog delivered offsets cursor)
    (number calls : ℕ) :
    ∃ result, executeChunk gateway plan fingerprint cursor number calls = .ok result := by
  obtain ⟨final, hl⟩ := loop_available hfaithful ha
    ((remainingOffsets plan cursor.positions + 1) * (cursor.positions.length + 1))
    (start cursor calls) (Reads.start h calls)
  rw [executeChunk, hl]
  exact ⟨_, rfl⟩

lemma executeChunk_stopped {messages : List RawMessage} {receipt : ChunkReceipt} {calls' : ℕ}
    (hstop : cursor.stopReason ≠ none)
    (hok : executeChunk gateway plan fingerprint cursor number calls =
      .ok (messages, receipt, calls')) : receipt.cursor = cursor := by
  obtain ⟨fuel, hf⟩ := Nat.exists_eq_succ_of_ne_zero (Nat.mul_pos
    (Nat.succ_pos (remainingOffsets plan cursor.positions))
    (Nat.succ_pos cursor.positions.length)).ne'
  have hi : (start cursor calls).iterate gateway plan = .exit (start cursor calls) := by
    have hreason : (start cursor calls).reason ≠ none := hstop
    rw [ReadState.iterate, if_pos hreason]
  rw [executeChunk, hf, ReadState.loop, hi] at hok
  cases hok
  rfl

lemma readChunks_succ {count : ℕ} {chained : Chained}
    (h : readChunks gateway plan fingerprint (count + 1) = .ok chained) :
    ∃ before messages receipt calls, readChunks gateway plan fingerprint count = .ok before ∧
      executeChunk gateway plan fingerprint before.cursor count before.calls =
        .ok (messages, receipt, calls) ∧
      chained = ⟨before.messages ++ messages, before.receipts ++ [receipt], receipt.cursor,
        calls⟩ := by
  rw [readChunks] at h
  split at h
  · cases h
  · next before hb =>
    rw [Chained.read] at h
    split at h
    · cases h
    · next messages receipt calls hc =>
      cases h
      exact ⟨before, messages, receipt, calls, hb, hc, rfl⟩

lemma readChunks_tracks (hfaithful : gateway.Faithful plan topicLog) {count : ℕ}
    {chained : Chained} (h : readChunks gateway plan fingerprint count = .ok chained) :
    Tracks plan topicLog chained.messages chained.offsets chained.cursor := by
  induction count generalizing chained with
  | zero =>
    cases h
    exact Tracks.initial plan topicLog
  | succ count ih =>
    obtain ⟨before, messages, receipt, calls, hb, hc, rfl⟩ := readChunks_succ h
    have ht := (executeChunk_spec hfaithful (ih hb) hc).tracks
    rw [Chained.offsets, flatMap_append, flatMap_singleton]
    exact ht

lemma readChunks_available (hfaithful : gateway.Faithful plan topicLog)
    (ha : gateway.Available plan) (count : ℕ) :
    ∃ chained, readChunks gateway plan fingerprint count = .ok chained := by
  induction count with
  | zero => exact ⟨_, rfl⟩
  | succ count ih =>
    obtain ⟨before, hb⟩ := ih
    obtain ⟨⟨messages, receipt, calls⟩, hc⟩ := executeChunk_available fingerprint
      hfaithful ha (readChunks_tracks hfaithful hb) count before.calls
    rw [readChunks, hb]
    dsimp only
    rw [Chained.read, hc]
    exact ⟨_, rfl⟩

end

section

variable {gateway : Gateway} {plan : ReadPlan} {topicLog : TopicLog}
  (fingerprint : List RawMessage → String)

structure DeliveredUpTo (topicLog : TopicLog) (r : OffsetRange) (position : ℕ)
    (messages : List RawMessage) : Prop where
  start_le : r.start ≤ position
  le_stop : position ≤ r.stop
  visible : deliveredTo r.topicPartition messages =
    topicLog.visible r.topicPartition r.start position
  increasing : (deliveredTo r.topicPartition messages).Pairwise fun m m' => m.offset < m'.offset
  once : (deliveredTo r.topicPartition messages).Nodup

lemma Tracks.deliveredUpTo {delivered : List RawMessage} {offsets : List PartitionOffsets}
    {cursor : ReadCursor} (h : Tracks plan topicLog delivered offsets cursor) {i : ℕ}
    {r : OffsetRange} (hr : plan.ranges[i]? = some r) :
    ∃ p, cursor.positions[i]? = some p ∧ p.topicPartition = r.topicPartition ∧
      DeliveredUpTo topicLog r p.nextOffset delivered := by
  have hlt : i < cursor.positions.length :=
    (List.getElem?_eq_some_iff.mp hr).1.trans_eq h.length.symm
  have hp := List.getElem?_eq_getElem hlt
  have ht := h.partitions i r _ hr hp
  refine ⟨_, hp, ht.topicPartition, ht.start_le, ht.le_stop, ht.sliced, ?_, ?_⟩
  · rw [ht.sliced]
    exact (topicLog.log r.topicPartition).sorted_slice _ _
  · rw [ht.sliced]
    exact (topicLog.log r.topicPartition).nodup_slice _ _

lemma Tracks.deliveredTo_stop {delivered : List RawMessage} {offsets : List PartitionOffsets}
    {cursor : ReadCursor} (h : Tracks plan topicLog delivered offsets cursor)
    (hstop : cursor.stopReason = some .snapshotExhausted) {r : OffsetRange} (hr : r ∈ plan.ranges) :
    deliveredTo r.topicPartition delivered = topicLog.visible r.topicPartition r.start r.stop := by
  obtain ⟨i, hi⟩ := mem_iff_getElem?.mp hr
  obtain ⟨p, hp, _, hu⟩ := h.deliveredUpTo hi
  have hz := h.exhausted hstop
  rw [remainingOffsets, total_eq_zero] at hz
  have hmem := mem_of_getElem? (List.getElem?_zip_eq_some (z := (p, r)).mpr ⟨hp, hi⟩)
  have hdone := hz (p, r) hmem
  have hend : p.nextOffset = r.stop :=
    Nat.le_antisymm hu.le_stop (Nat.sub_eq_zero_iff_le.mp hdone)
  rw [hu.visible, hend]

theorem readChunks_deliver (hfaithful : gateway.Faithful plan topicLog) (count : ℕ) :
    (gateway.Available plan → ∃ chained, readChunks gateway plan fingerprint count = .ok chained) ∧
    ∀ chained, readChunks gateway plan fingerprint count = .ok chained →
      (∀ (i : ℕ) r, plan.ranges[i]? = some r → ∃ p, chained.cursor.positions[i]? = some p ∧
        p.topicPartition = r.topicPartition ∧
          DeliveredUpTo topicLog r p.nextOffset chained.messages) ∧
      (∀ m ∈ chained.messages, ∃ r ∈ plan.ranges, m.topicPartition = r.topicPartition) ∧
      (∀ n ∈ plan.limits.maxMessages, chained.messages.length ≤ n) ∧
      (∀ n ∈ plan.limits.maxBytes, payloadTotal chained.messages ≤ n) ∧
      (chained.cursor.stopReason = some .snapshotExhausted → ∀ r ∈ plan.ranges,
        deliveredTo r.topicPartition chained.messages =
          topicLog.visible r.topicPartition r.start r.stop) := by
  refine ⟨fun havailable => readChunks_available hfaithful havailable count, ?_⟩
  intro chained hread
  have htracks := readChunks_tracks hfaithful hread
  refine ⟨fun i r hr => htracks.deliveredUpTo hr, ?_, htracks.messages_le, htracks.bytes_le,
    fun hstop r hr => htracks.deliveredTo_stop hstop hr⟩
  intro m hm
  obtain ⟨r, hr, htp⟩ := mem_map.mp (htracks.planned m hm)
  exact ⟨r, hr, htp.symm⟩

end

def logConsumer (topicLog : TopicLog) (last : ℕ) : Consumer where
  poll _ _ tp position maxRecords :=
    .ok (if maxRecords = 0 then ⟨[], position⟩
      else ⟨topicLog.visible tp position (position + 1), position + 1⟩)
  bounds _ _ _ := (0, last)

lemma logConsumer_follows (topicLog : TopicLog) (last : ℕ) (level : IsolationLevel) :
    (logConsumer topicLog last).Follows level topicLog := by
  intro n tp position maxRecords poll hp
  cases hp
  split
  · exact ⟨Nat.le_refl _, ((topicLog.log tp).slice_self position).symm, Nat.zero_le _⟩
  · next hmax =>
    have hl := (topicLog.log tp).length_slice_le position (position + 1)
    rw [Nat.add_sub_cancel_left] at hl
    exact ⟨Nat.le_succ _, rfl, hl.trans (Nat.one_le_iff_ne_zero.mpr hmax)⟩

lemma logConsumer_prompt (topicLog : TopicLog) {last : ℕ} {request : ReadRequest}
    (h : request.offsetRange.stop ≤ last) : (logConsumer topicLog last).Prompt request where
  poll n position maxRecords hmax := by
    exact ⟨⟨topicLog.visible request.offsetRange.topicPartition position (position + 1),
      position + 1⟩, congrArg Except.ok (if_neg hmax.ne'), Nat.lt_succ_self _⟩
  kept n position _ := decide_eq_true ⟨Nat.zero_le _, h⟩

def sampleMessage (partition offset : ℕ) : RawMessage where
  topicPartition := ⟨"orders", partition⟩
  offset := offset
  timestampMs := none
  timestampType := none
  key := none
  value := some [1, 2, 3]

def sampleMessages : List RawMessage :=
  [sampleMessage 0 0, sampleMessage 0 2, sampleMessage 1 4, sampleMessage 0 5]

def sampleLog : TopicLog where
  log tp := ⟨sampleMessages.filter fun m => m.topicPartition = tp,
    (by decide : sampleMessages.Pairwise fun m m' => m.offset < m'.offset).filter _⟩
  located _ _ hm := of_decide_eq_true (mem_filter.mp hm).2

def samplePlan : ReadPlan where
  readId := "read"
  topic := "orders"
  groupId := "group"
  ranges := [⟨⟨"orders", 0⟩, 0, 5, by decide⟩, ⟨⟨"orders", 1⟩, 3, 6, by decide⟩]
  limits := { maxMessages := some 10, maxBytes := some 40, rowsPerPartition := 2,
              targetPartitionBytes := 8, maxMessageBytes := 4 }
  sameTopic := by decide
  distinct := by decide

def sampleGateway : Gateway := kafkaGateway (fun _ => logConsumer sampleLog 6) 3

lemma sampleGateway_faithful : sampleGateway.Faithful samplePlan sampleLog :=
  kafkaGateway_faithful fun _ => logConsumer_follows _ _ _

lemma prompt_sampleLog {request : ReadRequest} (ha : Asked samplePlan request) :
    (logConsumer sampleLog 6).Prompt request := by
  obtain ⟨r, hr, _, _, hstop⟩ := ha.planned
  have hl : ∀ r ∈ samplePlan.ranges, r.stop ≤ 6 := by decide
  exact logConsumer_prompt sampleLog (hstop.trans_le (hl r hr))

lemma fits_sampleLog {request : ReadRequest} (ha : Asked samplePlan request) :
    Fits sampleLog request := by
  intro m hm
  have hs : ∀ m ∈ sampleMessages, m.payloadBytes = 3 := by decide
  have hm : m ∈ sampleMessages.filter fun m =>
      m.topicPartition = request.offsetRange.topicPartition := hm
  have hsize := hs m (mem_of_mem_filter hm)
  rw [hsize, ha.maxMessageBytes, ha.totalMaxBytes]
  decide

lemma sampleGateway_available : sampleGateway.Available samplePlan :=
  kafkaGateway_available (fun _ => logConsumer_follows sampleLog 6 _) (fun _ _ => prompt_sampleLog)
    fun _ => fits_sampleLog

theorem readChunks_deliver_sample : ∃ chained,
    readChunks sampleGateway samplePlan (fun _ => "") 2 = .ok chained ∧
      chained.messages.length ≤ 10 ∧
        ∃ p : PartitionPosition, chained.cursor.positions[1]? = some p ∧
          DeliveredUpTo sampleLog ⟨⟨"orders", 1⟩, 3, 6, by decide⟩ p.nextOffset chained.messages := by
  obtain ⟨hexists, hall⟩ := readChunks_deliver (fun _ => "") sampleGateway_faithful 2
  obtain ⟨chained, hread⟩ := hexists sampleGateway_available
  obtain ⟨hpartitions, _, hmessages, _⟩ := hall chained hread
  obtain ⟨p, hp, _, hupto⟩ := hpartitions 1 ⟨⟨"orders", 1⟩, 3, 6, by decide⟩ rfl
  exact ⟨chained, hread, hmessages 10 rfl, p, hp, hupto⟩

end Dvt.Kafka
