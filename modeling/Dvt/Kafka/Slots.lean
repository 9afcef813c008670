import Dvt.Kafka.Chunks

/-! The planned slots bring a read to a stop reason. -/

namespace Dvt.Kafka

open Library

variable {gateway : Gateway} {plan : ReadPlan} {topicLog : TopicLog}
  {fingerprint : List RawMessage → String}

structure Unfinished (plan : ReadPlan) (count : ℕ) (chained : Chained) : Prop where
  filled : ∃ a b, count = a + b ∧ a * plan.limits.rowsPerPartition ≤ chained.messages.length ∧
    b * plan.limits.targetPartitionBytes ≤ payloadTotal chained.messages
  nonempty : count ≤ chained.messages.length
  unread : 0 < count → 0 < remainingOffsets plan chained.cursor.positions ∧
    chained.cursor.remainingMessages ≠ some 0

lemma length_pos_of_full {messages : List RawMessage}
    (h : plan.limits.rowsPerPartition ≤ messages.length ∨
      plan.limits.targetPartitionBytes ≤ payloadTotal messages) : 0 < messages.length := by
  obtain hrows | hb := h
  · exact plan.limits.rowsPerPartition_pos.trans_le hrows
  · refine List.length_pos_iff.mpr fun hnil => ?_
    rw [hnil] at hb
    exact Nat.not_lt.mpr hb plan.limits.targetPartitionBytes_pos

variable {count : ℕ} {chained : Chained}

lemma readChunks_unfinished (hf : gateway.Faithful plan topicLog)
    (h : readChunks gateway plan fingerprint count = .ok chained)
    (hnone : chained.cursor.stopReason = none) : Unfinished plan count chained := by
  induction count generalizing chained with
  | zero => exact ⟨⟨0, 0, rfl, by simp, by simp⟩, Nat.zero_le _, nofun⟩
  | succ count ih =>
    obtain ⟨before, messages, receipt, calls, hb, hc, rfl⟩ := readChunks_succ h
    have hs := executeChunk_spec hf (readChunks_tracks hf hb) hc
    have hopen : before.cursor.stopReason = none := by
      by_contra hstop
      rw [executeChunk_stopped hstop hc] at hnone
      exact hstop hnone
    obtain ⟨⟨a, b, rfl, hrows, hbyt⟩, hn, _⟩ := ih hb hopen
    have hfull := hs.full hnone
    have hm := length_pos_of_full hfull
    refine ⟨?_, ?_, fun _ => hs.unread hnone⟩
    · rw [List.length_append, payloadTotal_append]
      obtain hfull | hfull := hfull
      · refine ⟨a + 1, b, by omega, ?_, by omega⟩
        rw [Nat.succ_mul]
        omega
      · refine ⟨a, b + 1, by omega, by omega, ?_⟩
        rw [Nat.succ_mul]
        omega
    · rw [List.length_append]
      omega

def messageBound (plan : ReadPlan) : ℕ :=
  plan.limits.maxMessages.elim (offsetCount plan) (min (offsetCount plan))

def byteBound (plan : ReadPlan) : ℕ :=
  plan.limits.maxBytes.elim (messageBound plan * plan.limits.maxMessageBytes)
    (min (messageBound plan * plan.limits.maxMessageBytes))

def slotBound (plan : ReadPlan) : ℕ :=
  if messageBound plan = 0 then 1
  else min (messageBound plan)
    ((messageBound plan + plan.limits.rowsPerPartition - 1) / plan.limits.rowsPerPartition +
      (byteBound plan + plan.limits.targetPartitionBytes - 1) / plan.limits.targetPartitionBytes + 1)

lemma readSlotCount_eq_some {maxPlanTasks slots : ℕ}
    (h : readSlotCount plan maxPlanTasks = some slots) : slots = slotBound plan := by
  have hb : (if maxPlanTasks < slotBound plan then none else some (slotBound plan)) =
      some slots := h
  split at hb
  · cases hb
  · exact (Option.some.inj hb).symm

lemma slotBound_pos (plan : ReadPlan) : 0 < slotBound plan := by
  rw [slotBound]
  split
  · exact Nat.one_pos
  · next hc =>
    rw [Nat.lt_min]
    exact ⟨Nat.pos_of_ne_zero hc, Nat.succ_pos _⟩

variable {delivered : List RawMessage} {offsets : List PartitionOffsets} {cursor : ReadCursor}

lemma length_lt_messageBound (h : Tracks plan topicLog delivered offsets cursor)
    (hr : 0 < remainingOffsets plan cursor.positions)
    (hm : cursor.remainingMessages ≠ some 0) : delivered.length < messageBound plan := by
  have hs := h.scanned
  have hb := h.messages
  rw [messageBound]
  cases hmax : plan.limits.maxMessages with
  | none =>
    rw [Option.elim_none]
    omega
  | some n =>
    rw [hmax] at hb
    have hn : n - delivered.length ≠ 0 := fun hz =>
      hm (hb.trans (congrArg some hz))
    rw [Option.elim_some]
    omega

lemma payloadTotal_le_byteBound (h : Tracks plan topicLog delivered offsets cursor)
    (hl : delivered.length ≤ messageBound plan) : payloadTotal delivered ≤ byteBound plan := by
  have hb : payloadTotal delivered ≤ messageBound plan * plan.limits.maxMessageBytes :=
    (total_le_length_mul h.messageBytes).trans (Nat.mul_le_mul_right _ hl)
  rw [byteBound]
  cases hmax : plan.limits.maxBytes with
  | none => exact hb
  | some n => exact Nat.le_min.mpr ⟨hb, h.bytes_le n hmax⟩

variable {n d : ℕ}

lemma lt_ceil_of_mul_lt {a : ℕ} (hd : 0 < d) (h : a * d < n) : a < (n + d - 1) / d := by
  rw [← Nat.succ_le_iff, Nat.le_div_iff_mul_le hd, Nat.succ_mul]
  omega

lemma le_ceil_of_mul_le {b : ℕ} (hd : 0 < d) (h : b * d ≤ n) : b ≤ (n + d - 1) / d := by
  rw [Nat.le_div_iff_mul_le hd]
  omega

lemma Unfinished.lt_slotBound (h : Unfinished plan count chained)
    (ht : Tracks plan topicLog chained.messages chained.offsets chained.cursor)
    (hc : 0 < count) : count < slotBound plan := by
  obtain ⟨hr, hm⟩ := h.unread hc
  have hl := length_lt_messageBound ht hr hm
  have hp := payloadTotal_le_byteBound ht hl.le
  obtain ⟨a, b, hsum, hrows, hbyt⟩ := h.filled
  have ha := lt_ceil_of_mul_lt plan.limits.rowsPerPartition_pos (hrows.trans_lt hl)
  have hb := le_ceil_of_mul_le plan.limits.targetPartitionBytes_pos (hbyt.trans hp)
  have hn := h.nonempty
  rw [slotBound, if_neg (by omega)]
  omega

theorem readSlotCount_sufficient (fingerprint : List RawMessage → String) {maxPlanTasks slots : ℕ}
    (hfaithful : gateway.Faithful plan topicLog) (havailable : gateway.Available plan)
    (hslots : readSlotCount plan maxPlanTasks = some slots) :
    ∃ chained, readChunks gateway plan fingerprint slots = .ok chained ∧
      chained.cursor.stopReason ≠ none := by
  cases readSlotCount_eq_some hslots
  obtain ⟨chained, hread⟩ := readChunks_available hfaithful havailable (slotBound plan)
  refine ⟨chained, hread, fun hnone => ?_⟩
  have hunfinished := readChunks_unfinished hfaithful hread hnone
  have hlt := hunfinished.lt_slotBound (readChunks_tracks hfaithful hread) (slotBound_pos plan)
  exact Nat.lt_irrefl _ hlt

theorem readSlotCount_samplePlan : readSlotCount samplePlan 10000 = some 8 ∧
    ∃ chained, readChunks sampleGateway samplePlan (fun _ => "") 8 = .ok chained ∧
      chained.cursor.stopReason ≠ none :=
  ⟨by decide, readSlotCount_sufficient (fun _ => "") sampleGateway_faithful
    sampleGateway_available (by decide : readSlotCount samplePlan 10000 = some 8)⟩

theorem gateway_read_ends {consumers : ℕ → Consumer} {patience maxPlanTasks slots : ℕ}
    (hf : ∀ n, (consumers n).Follows plan.isolationLevel topicLog)
    (hp : ∀ n request, Asked plan request → (consumers n).Prompt request)
    (hfits : ∀ request, Asked plan request → Fits topicLog request)
    (hs : readSlotCount plan maxPlanTasks = some slots) :
    ∃ chained reason, readChunks (kafkaGateway consumers patience) plan fingerprint slots = .ok chained ∧
      chained.cursor.stopReason = some reason ∧ (reason = .snapshotExhausted → ∀ r ∈ plan.ranges,
        deliveredTo r.topicPartition chained.messages =
          topicLog.visible r.topicPartition r.start r.stop) := by
  have hg : (kafkaGateway consumers patience).Faithful plan topicLog := kafkaGateway_faithful hf
  cases readSlotCount_eq_some hs
  obtain ⟨chained, hread⟩ :=
    readChunks_available hg (kafkaGateway_available hf hp hfits) (slotBound plan)
  have ht := readChunks_tracks hg hread
  obtain ⟨reason, hr⟩ := Option.ne_none_iff_exists'.mp fun hnone =>
    ((readChunks_unfinished hg hread hnone).lt_slotBound ht (slotBound_pos plan)).false
  exact ⟨chained, reason, hread, hr, fun he r => ht.deliveredTo_stop (he ▸ hr)⟩

theorem gateway_read_ends_sample : ∃ chained reason,
    readChunks sampleGateway samplePlan (fun _ => "") 8 = .ok chained ∧
      chained.cursor.stopReason = some reason ∧ (reason = .snapshotExhausted →
        ∀ r ∈ samplePlan.ranges, deliveredTo r.topicPartition chained.messages =
          sampleLog.visible r.topicPartition r.start r.stop) :=
  gateway_read_ends (fun _ => logConsumer_follows _ _ _) (fun _ _ => prompt_sampleLog)
    (fun _ => fits_sampleLog) (by decide : readSlotCount samplePlan 10000 = some 8)

end Dvt.Kafka
