import Dvt.Kafka.Reader

/-! A summary is published after all chunks, and its offsets cover what was delivered. -/

namespace Dvt.Kafka

open Library List Dict ChunkReceipt

variable {partition : ℕ}

lemma get?_totals (offsets : List PartitionOffsets) (partition : ℕ) :
    (totals offsets).get? partition = partitionTotal partition offsets := by
  induction offsets using List.reverseRecOn with
  | nil => rfl
  | append_singleton offsets offset ih =>
    have hstep : totals (offsets ++ [offset]) = (totals offsets).set offset.partition
        (mergeOffsets ((totals offsets).get? offset.partition) offset) := by
      rw [totals, foldl_append]
      rfl
    rw [hstep, get?_set]
    split
    · next heq =>
      subst heq
      rw [partitionTotal_append_eq offsets rfl, ih]
    · next hne => rw [partitionTotal_append_ne offsets (Ne.symm hne), ih]

lemma partition_of_partitionTotal {offsets : List PartitionOffsets}
    {t : PartitionOffsets} (h : partitionTotal partition offsets = some t) :
    t.partition = partition ∧ ∃ o ∈ offsets, o.partition = partition := by
  induction offsets using List.reverseRecOn with
  | nil => cases h
  | append_singleton offsets offset ih =>
    by_cases heq : offset.partition = partition
    · rw [partitionTotal_append_eq offsets heq] at h
      cases h
      refine ⟨Eq.trans ?_ heq, offset, by simp, heq⟩
      cases partitionTotal partition offsets <;> rfl
    · rw [partitionTotal_append_ne offsets heq] at h
      obtain ⟨hp, o, ho, hop⟩ := ih h
      exact ⟨hp, o, mem_append_left _ ho, hop⟩

section

variable (plan : ReadPlan) (topicLog : TopicLog) (slots : ℕ)

structure PartitionPublished (delivered : List RawMessage) (o : PartitionOffsets) (r : OffsetRange) :
    Prop where
  partition : r.topicPartition.partition = o.partition
  start_le : r.start ≤ o.startOffset
  le_stop : o.nextOffset ≤ r.stop
  visible : deliveredTo r.topicPartition delivered =
    topicLog.visible r.topicPartition o.startOffset o.nextOffset
  once : ∀ m ∈ topicLog.visible r.topicPartition o.startOffset o.nextOffset, delivered.count m = 1
  count : o.messageCount = (deliveredTo r.topicPartition delivered).length
  bytes : o.payloadBytes = payloadTotal (deliveredTo r.topicPartition delivered)

structure Published (before : List Record) (summary : ReadSummary) : Prop where
  valid : Record.invalidate ∉ before
  read : readNumbers before = List.range slots
  delivered : ∀ n < slots, Record.deliver n ∈ before
  partitions : ∀ o ∈ summary.partitions, ∃ r ∈ plan.ranges,
    PartitionPublished topicLog (firstReads before) o r
  messagesRead : summary.messagesRead = some (firstReads before).length
  bytesRead : summary.bytesRead = some (payloadTotal (firstReads before))

def Reader.lastCursor (s : Reader) : ReadCursor :=
  s.receipts.values.getLast?.elim (initialCursor plan) cursor

structure Sound (s : Reader) : Prop where
  keys : s.receipts.keys = List.range s.receipts.values.length
  count_le : s.receipts.values.length ≤ slots
  tracks : Tracks plan topicLog (firstReads s.log)
    (s.receipts.values.flatMap offsets) (s.lastCursor plan)
  messages : total messageCount s.receipts.values = (firstReads s.log).length
  bytes : total payloadBytes s.receipts.values = payloadTotal (firstReads s.log)
  reads : readNumbers s.log = List.range s.receipts.values.length
  nodup : s.delivered.Nodup
  delivered : ∀ n ∈ s.delivered, n < slots ∧ Record.deliver n ∈ s.log
  valid : s.failed = false → Record.invalidate ∉ s.log
  published : ∀ before summary, before ++ [.publish summary] <+: s.log →
    Published plan topicLog slots before summary

variable {plan topicLog slots} {s : Reader}

lemma firstReads_append (log log' : List Record) :
    firstReads (log ++ log') = firstReads log ++ firstReads log' :=
  flatMap_append

lemma readNumbers_append (log log' : List Record) :
    readNumbers (log ++ log') = readNumbers log ++ readNumbers log' :=
  flatMap_append

@[simp] lemma firstReads_singleton (x : Record) : firstReads [x] = x.firstRead :=
  flatMap_singleton ..

@[simp] lemma readNumbers_singleton (x : Record) : readNumbers [x] = x.readNumber :=
  flatMap_singleton ..

lemma Sound.initial : Sound plan topicLog slots {} where
  keys := rfl
  count_le := Nat.zero_le _
  tracks := Tracks.initial plan topicLog
  messages := rfl
  bytes := rfl
  reads := rfl
  nodup := nodup_nil
  delivered := nofun
  valid _ := nofun
  published before summary h := by
    have hl := h.length_le
    simp at hl

lemma Sound.note (h : Sound plan topicLog slots s) {x : Record} (hm : x.firstRead = [])
    (hnum : x.readNumber = []) (hv : x = .invalidate → s.failed = true)
    (hpub : ∀ summary, x = .publish summary → Published plan topicLog slots s.log summary) :
    Sound plan topicLog slots { s with log := s.log ++ [x] } := by
  have hf : firstReads (s.log ++ [x]) = firstReads s.log := by
    rw [firstReads_append, firstReads_singleton, hm, append_nil]
  have hr : readNumbers (s.log ++ [x]) = readNumbers s.log := by
    rw [readNumbers_append, readNumbers_singleton, hnum, append_nil]
  refine ⟨h.keys, h.count_le, ?_, ?_, ?_, hr.trans h.reads, h.nodup, ?_, ?_, ?_⟩
  · rw [hf]
    exact h.tracks
  · rw [hf]
    exact h.messages
  · rw [hf]
    exact h.bytes
  · intro n hn
    obtain ⟨hlt, hmem⟩ := h.delivered n hn
    exact ⟨hlt, mem_append_left _ hmem⟩
  · intro hfai hmem
    obtain hmem | hmem := mem_append.mp hmem
    · exact h.valid hfai hmem
    · have hx := hv (mem_singleton.mp hmem).symm
      exact Bool.false_ne_true (hfai.symm.trans hx)
  · intro before summary hp
    obtain heq | hp := prefix_concat_iff.mp hp
    · obtain ⟨rfl, hx⟩ := append_inj' heq rfl
      exact hpub summary (singleton_inj.mp hx).symm
    · exact h.published before summary hp

lemma Sound.invalidate (h : Sound plan topicLog slots s) :
    Sound plan topicLog slots s.invalidate := by
  have hf : Sound plan topicLog slots { s with failed := true, published := false } :=
    { h with valid := nofun }
  exact hf.note rfl rfl (fun _ => rfl) nofun

variable {gateway : Gateway} {number : ℕ} {fingerprint : List RawMessage → String}

section

variable (h : Sound plan topicLog slots s)

include h

lemma Sound.readAgain {previous : ChunkReceipt} (hp : s.receipts.get? number = some previous) :
    Sound plan topicLog slots (s.readAgain gateway plan fingerprint slots previous number) := by
  rw [Reader.readAgain]
  split
  · exact h.invalidate
  · next messages _ =>
    split
    · exact h.invalidate
    · rw [set_of_get?_eq_some hp]
      have hcalls : Sound plan topicLog slots
          { s with calls := s.calls + previous.offsets.length } := { h with }
      exact hcalls.note (x := .replay number messages) rfl rfl nofun nofun

lemma Sound.chunk {messages : List RawMessage}
    {receipt : ChunkReceipt} (calls : ℕ) (hlt : s.receipts.values.length < slots)
    (hc : ChunkRead plan topicLog (firstReads s.log)
      (s.receipts.values.flatMap offsets) messages receipt) :
    Sound plan topicLog slots { s with
      receipts := s.receipts.set s.receipts.values.length receipt
      calls := calls
      log := s.log ++ [.read s.receipts.values.length messages] } := by
  have hnew : s.receipts.values.length ∉ s.receipts.keys := by
    rw [h.keys, mem_range]
    exact Nat.lt_irrefl _
  have he := entries_set_of_notMem receipt hnew
  have hk : (s.receipts.set s.receipts.values.length receipt).keys =
      s.receipts.keys ++ [s.receipts.values.length] := by
    rw [Dict.keys, he, map_append]
    rfl
  have hv : (s.receipts.set s.receipts.values.length receipt).values =
      s.receipts.values ++ [receipt] := by
    rw [Dict.values, he, map_append]
    rfl
  have hf : firstReads (s.log ++ [.read s.receipts.values.length messages]) =
      firstReads s.log ++ messages := by
    rw [firstReads_append, firstReads_singleton]
    rfl
  refine ⟨?_, ?_, ?_, ?_, ?_, ?_, h.nodup, ?_, ?_, ?_⟩
  · rw [hk, hv, length_append, length_singleton, range_succ, h.keys]
  · rw [hv, length_append]
    exact hlt
  · have hl : Reader.lastCursor plan { s with
        receipts := s.receipts.set s.receipts.values.length receipt
        calls := calls
        log := s.log ++ [.read s.receipts.values.length messages] } = receipt.cursor := by
      rw [Reader.lastCursor, hv, List.getLast?_concat, Option.elim_some]
    rw [hl]
    rw [hf, hv, flatMap_append, flatMap_singleton]
    exact hc.tracks
  · rw [hf, hv, total_append, length_append, h.messages, ← hc.count]
    rfl
  · rw [hf, hv, total_append, payloadTotal_append, h.bytes, ← hc.bytes]
    rfl
  · rw [hv, readNumbers_append, h.reads, length_append, length_singleton, range_succ]
    rfl
  · intro n hn
    obtain ⟨hs, hmem⟩ := h.delivered n hn
    exact ⟨hs, mem_append_left _ hmem⟩
  · intro hfai hmem
    obtain hmem | hmem := mem_append.mp hmem
    · exact h.valid hfai hmem
    · cases mem_singleton.mp hmem
  · intro before summary hp
    obtain heq | hp := prefix_concat_iff.mp hp
    · obtain ⟨_, hx⟩ := append_inj' heq rfl
      cases singleton_inj.mp hx
    · exact h.published before summary hp

lemma Sound.inputCursor {cursor : ReadCursor}
    (hc : s.inputCursor plan number = some cursor) (hnew : s.receipts.get? number = none) :
    number = s.receipts.values.length ∧ cursor = s.lastCursor plan := by
  rw [get?_eq_getElem?_values h.keys, List.getElem?_eq_none_iff] at hnew
  cases number with
  | zero =>
    have hnil : s.receipts.values = [] := length_eq_zero_iff.mp (Nat.le_zero.mp hnew)
    cases hc
    refine ⟨?_, ?_⟩
    · rw [hnil]
      rfl
    · rw [Reader.lastCursor, hnil]
      rfl
  | succ number =>
    rw [Reader.inputCursor, get?_eq_getElem?_values h.keys, Option.map_eq_some_iff] at hc
    obtain ⟨receipt, hr, rfl⟩ := hc
    have hlt := (List.getElem?_eq_some_iff.mp hr).1
    have hl : s.receipts.values.length = number + 1 := by omega
    refine ⟨hl.symm, ?_⟩
    rw [Reader.lastCursor, List.getLast?_eq_getElem?, hl, Nat.add_sub_cancel, hr, Option.elim_some]

end

lemma Sound.read
    (hf : gateway.Faithful plan topicLog) (h : Sound plan topicLog slots s) (number : ℕ)
    (interrupted : Bool) :
    Sound plan topicLog slots (s.read gateway plan fingerprint slots number interrupted) := by
  rw [Reader.read]
  split
  · exact h
  · next cursor hc =>
    split
    · exact h
    · next hs =>
      split
      · exact h.invalidate
      · split
        · next hnew =>
          obtain ⟨rfl, rfl⟩ := h.inputCursor hc hnew
          rw [Reader.readFirst]
          split
          · exact h.invalidate
          · next messages receipt calls hchu =>
            split
            · exact h.invalidate
            · exact h.chunk calls (Nat.not_le.mp hs) (executeChunk_spec hf h.tracks hchu)
        · next previous hp => exact h.readAgain hp

section

variable (h : Sound plan topicLog slots s)

include h

lemma Sound.deliver (hread : (s.receipts.get? number).isSome) :
    Sound plan topicLog slots (s.deliver number) := by
  have hs : number < slots := by
    obtain ⟨receipt, hr⟩ := Option.isSome_iff_exists.mp hread
    rw [get?_eq_getElem?_values h.keys] at hr
    exact (List.getElem?_eq_some_iff.mp hr).1.trans_le h.count_le
  have hnote := h.note (x := .deliver number) rfl rfl nofun nofun
  refine { hnote with nodup := ?_, delivered := ?_ }
  · rw [Reader.deliver]
    split
    · exact h.nodup
    · next hnew =>
      rw [← concat_eq_append]
      exact h.nodup.concat hnew
  · intro n hn
    have hmem : n ∈ s.delivered ∨ n = number := by
      rw [Reader.deliver] at hn
      dsimp only at hn
      split at hn
      · exact .inl hn
      · exact (mem_append.mp hn).imp_right mem_singleton.mp
    obtain hmem | rfl := hmem
    · exact hnote.delivered n hmem
    · exact ⟨hs, mem_append_right _ (mem_singleton.mpr rfl)⟩

lemma Sound.partitionPublished {o : PartitionOffsets}
    (ho : partitionTotal partition (s.receipts.values.flatMap offsets) = some o) :
    ∃ r ∈ plan.ranges, PartitionPublished topicLog (firstReads s.log) o r := by
  obtain ⟨hp, o', ho', heq⟩ := partition_of_partitionTotal ho
  obtain ⟨r, hr, hran⟩ := mem_map.mp (h.tracks.offsets_planned o' ho')
  have hpart : r.topicPartition.partition = partition := hran.trans heq
  obtain ⟨i, hi⟩ := mem_iff_getElem?.mp hr
  have hlt := (List.getElem?_eq_some_iff.mp hi).1.trans_eq h.tracks.length.symm
  have ht := h.tracks.partitions i r _ hi (List.getElem?_eq_getElem hlt)
  obtain ⟨hc, hs, _, hn⟩ := ht.covered o (hpart ▸ ho)
  refine ⟨r, hr, hpart.trans hp.symm, hs, hn.trans ht.le_stop, hc.sliced, ?_, hc.count, hc.bytes⟩
  intro m hm
  have htp : decide (m.topicPartition = r.topicPartition) = true :=
    decide_eq_true (topicPartition_visible hm)
  have hcou : (deliveredTo r.topicPartition (firstReads s.log)).count m =
      (firstReads s.log).count m := count_filter htp
  rw [← hcou, hc.sliced]
  exact count_eq_one_of_mem ((topicLog.log r.topicPartition).nodup_slice _ _) hm

lemma Sound.all_delivered (hl : s.delivered.length = slots) :
    ∀ n < slots, Record.deliver n ∈ s.log := by
  have hsub : s.delivered ⊆ List.range slots := fun n hn =>
    mem_range.mpr (h.delivered n hn).1
  have hp := (subperm_of_subset h.nodup hsub).perm_of_length_le (by rw [length_range, hl])
  intro n hn
  exact (h.delivered n (hp.mem_iff.mpr (mem_range.mpr hn))).2

lemma Sound.ready (hf : s.failed = false)
    (hr : s.receipts.values.length = slots) (hd : s.delivered.length = slots)
    (reason : StopReason) :
    Published plan topicLog slots s.log (s.summary plan s.receipts.values reason) := by
  refine ⟨h.valid hf, ?_, h.all_delivered hd, ?_, congrArg some h.messages, congrArg some h.bytes⟩
  · rw [h.reads, hr]
  · intro o ho
    obtain ⟨partition, _, hget⟩ := mem_filterMap.mp ho
    rw [get?_totals] at hget
    exact h.partitionPublished hget

lemma Sound.publish {summary : ReadSummary}
    (hready : Published plan topicLog slots s.log summary) (publishFails : Bool) :
    Sound plan topicLog slots (s.publish summary publishFails) := by
  have hn := h.note (x := .publish summary) rfl rfl nofun
    (fun summary' hs => by cases hs; exact hready)
  cases publishFails with
  | true => exact hn.invalidate
  | false =>
    exact { hn with }

lemma Sound.finish (cancelled publishFails : Bool) :
    Sound plan topicLog slots (s.finish plan slots cancelled publishFails) := by
  rw [Reader.finish]
  split
  · exact h.invalidate
  · next hrun =>
    have hf : s.failed = false := Bool.eq_false_iff.mpr fun hf => hrun (.inr hf)
    split
    · exact h
    · next hall =>
      obtain ⟨hk, hd⟩ := not_or.mp hall
      have hr : s.receipts.values.length = slots := by
        rw [← not_not.mp hk, h.keys, length_range]
      split
      · exact h.invalidate
      · split
        · exact h.invalidate
        · next reason _ =>
          split
          · exact h
          · split
            · exact h.invalidate
            · next receipts hmap =>
              rw [← hr, mapM_get?_range h.keys] at hmap
              cases hmap
              exact h.publish (h.ready hf hr (not_not.mp hd) reason) publishFails

end

lemma Sound.step (fingerprint : List RawMessage → String)
    (hf : gateway.Faithful plan topicLog) (h : Sound plan topicLog slots s)
    (event : ReaderEvent) :
    Sound plan topicLog slots (s.step gateway plan fingerprint slots event) := by
  cases event with
  | read number interrupted => exact h.read hf number interrupted
  | deliver number cancelled publishFails =>
    rw [Reader.step]
    split
    · next hr => exact (h.deliver hr).finish cancelled publishFails
    · exact h
  | finish cancelled publishFails => exact h.finish cancelled publishFails
  | invalidate => exact h.invalidate

lemma Sound.run (fingerprint : List RawMessage → String)
    (hf : gateway.Faithful plan topicLog) (events : List ReaderEvent) :
    Sound plan topicLog slots (run (Reader.step gateway plan fingerprint slots) {} events) :=
  run_invariant events (fun _ event h => h.step fingerprint hf event) Sound.initial

end

end Dvt.Kafka
