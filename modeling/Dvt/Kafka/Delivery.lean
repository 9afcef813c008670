import Dvt.Kafka.ReadChunk

/-! What a cursor stands for: the messages read so far and the budgets left. -/

namespace Dvt.Kafka

open Library List ReadState

variable {plan : ReadPlan} {topicLog : TopicLog} {position : PartitionPosition} {batch : ReadBatch}
  {delivered : List RawMessage} {offsets : List PartitionOffsets}

def deliveredTo (tp : TopicPartition) (delivered : List RawMessage) : List RawMessage :=
  delivered.filter fun m => m.topicPartition = tp

def mergeOffsets (old : Option PartitionOffsets) (offset : PartitionOffsets) : PartitionOffsets :=
  match old with
  | none => offset
  | some old => { offset with
      startOffset := old.startOffset
      messageCount := old.messageCount + offset.messageCount
      payloadBytes := old.payloadBytes + offset.payloadBytes }

def partitionTotal (partition : ℕ) (offsets : List PartitionOffsets) : Option PartitionOffsets :=
  (offsets.filter fun offset => offset.partition = partition).foldl
    (fun old offset => some (mergeOffsets old offset)) none

section

variable (plan : ReadPlan) (topicLog : TopicLog)

structure Covers (tp : TopicPartition) (delivered : List RawMessage) (t : PartitionOffsets) :
    Prop where
  sliced : deliveredTo tp delivered = topicLog.visible tp t.startOffset t.nextOffset
  count : t.messageCount = (deliveredTo tp delivered).length
  bytes : t.payloadBytes = payloadTotal (deliveredTo tp delivered)
  last : t.nextOffset = t.lastMessageOffset + 1

structure PartitionTracks (delivered : List RawMessage) (offsets : List PartitionOffsets)
    (r : OffsetRange) (p : PartitionPosition) : Prop where
  topicPartition : p.topicPartition = r.topicPartition
  start_le : r.start ≤ p.nextOffset
  le_stop : p.nextOffset ≤ r.stop
  sliced : deliveredTo r.topicPartition delivered =
    topicLog.visible r.topicPartition r.start p.nextOffset
  untouched : partitionTotal r.topicPartition.partition offsets = none →
    deliveredTo r.topicPartition delivered = []
  covered : ∀ t, partitionTotal r.topicPartition.partition offsets = some t →
    Covers topicLog r.topicPartition delivered t ∧ r.start ≤ t.startOffset ∧
      t.startOffset ≤ t.nextOffset ∧ t.nextOffset ≤ p.nextOffset

structure Tracks (delivered : List RawMessage) (offsets : List PartitionOffsets)
    (cursor : ReadCursor) : Prop where
  length : cursor.positions.length = plan.ranges.length
  partitions : ∀ (i : ℕ) r p, plan.ranges[i]? = some r → cursor.positions[i]? = some p →
    PartitionTracks topicLog delivered offsets r p
  planned : ∀ m ∈ delivered, m.topicPartition ∈ plan.ranges.map OffsetRange.topicPartition
  offsets_planned : ∀ o ∈ offsets, o.partition ∈ plan.ranges.map fun r => r.topicPartition.partition
  scanned : delivered.length + remainingOffsets plan cursor.positions ≤ offsetCount plan
  messages : cursor.remainingMessages = plan.limits.maxMessages.map (· - delivered.length)
  messages_le : ∀ n ∈ plan.limits.maxMessages, delivered.length ≤ n
  bytes : cursor.remainingBytes = plan.limits.maxBytes.map (· - payloadTotal delivered)
  bytes_le : ∀ n ∈ plan.limits.maxBytes, payloadTotal delivered ≤ n
  messageBytes : ∀ m ∈ delivered, m.payloadBytes ≤ plan.limits.maxMessageBytes
  index : plan.ranges ≠ [] → cursor.nextPartitionIndex < plan.ranges.length
  exhausted : cursor.stopReason = some .snapshotExhausted →
    remainingOffsets plan cursor.positions = 0

end

lemma remainingOffsets_start (plan : ReadPlan) :
    remainingOffsets plan (initialCursor plan).positions = offsetCount plan := by
  rw [remainingOffsets, offsetCount, initialCursor]
  generalize plan.ranges = ranges
  induction ranges with
  | nil => rfl
  | cons r ranges ih =>
    rw [map_cons, zip_cons_cons, total_cons, total_cons, ih]

lemma Tracks.initial (plan : ReadPlan) (topicLog : TopicLog) :
    Tracks plan topicLog [] [] (initialCursor plan) where
  length := by simp [initialCursor]
  partitions i r p hr hp := by
    rw [initialCursor, List.getElem?_map, hr] at hp
    cases hp
    refine ⟨rfl, Nat.le_refl _, r.start_le, ?_, fun _ => rfl, nofun⟩
    exact ((topicLog.log r.topicPartition).slice_self r.start).symm
  planned := by simp
  offsets_planned := by simp
  scanned := by rw [length_nil, Nat.zero_add, remainingOffsets_start]
  messages := by
    cases h : plan.limits.maxMessages with
    | none | some n => exact h
  messages_le := by simp
  bytes := by
    cases h : plan.limits.maxBytes with
    | none | some n => exact h
  bytes_le := by simp [payloadTotal]
  messageBytes := by simp
  index := fun h => length_pos_iff.mpr h
  exhausted := nofun

section

variable {tp : TopicPartition}

lemma deliveredTo_append (tp : TopicPartition) (delivered messages : List RawMessage) :
    deliveredTo tp (delivered ++ messages) = deliveredTo tp delivered ++ deliveredTo tp messages :=
  filter_append ..

variable {a b : ℕ} {m : RawMessage}

lemma mem_visible : m ∈ topicLog.visible tp a b ↔
    m ∈ (topicLog.log tp).entries ∧ a ≤ m.offset ∧ m.offset < b :=
  (topicLog.log tp).mem_slice

lemma topicPartition_visible (h : m ∈ topicLog.visible tp a b) : m.topicPartition = tp :=
  topicLog.located tp m (mem_visible.mp h).1

lemma deliveredTo_visible (tp : TopicPartition) (a b : ℕ) :
    deliveredTo tp (topicLog.visible tp a b) = topicLog.visible tp a b :=
  filter_eq_self.mpr fun _ hm => decide_eq_true (topicPartition_visible hm)

lemma deliveredTo_visible_ne {tp' : TopicPartition} (h : tp' ≠ tp) (a b : ℕ) :
    deliveredTo tp' (topicLog.visible tp a b) = [] :=
  filter_eq_nil_iff.mpr fun _ hm htp =>
    h ((of_decide_eq_true htp).symm.trans (topicPartition_visible hm))

variable {partition : ℕ} {offset : PartitionOffsets}

lemma partitionTotal_append_eq
    (offsets : List PartitionOffsets) (h : offset.partition = partition) :
    partitionTotal partition (offsets ++ [offset]) =
      some (mergeOffsets (partitionTotal partition offsets) offset) := by
  simp [partitionTotal, h]

lemma partitionTotal_append_ne
    (offsets : List PartitionOffsets) (h : offset.partition ≠ partition) :
    partitionTotal partition (offsets ++ [offset]) = partitionTotal partition offsets := by
  simp [partitionTotal, h]

variable {r : OffsetRange} {p : PartitionPosition}

lemma PartitionTracks.other (h : PartitionTracks topicLog delivered offsets r p)
    (hne : r.topicPartition ≠ position.topicPartition)
    (hp : position.topicPartition.partition ≠ r.topicPartition.partition)
    (hbatch : batch.messages = topicLog.visible position.topicPartition a b) :
    PartitionTracks topicLog (delivered ++ batch.messages) (offsets ++ batchOffsets position batch)
      r p := by
  have hd : deliveredTo r.topicPartition (delivered ++ batch.messages) =
      deliveredTo r.topicPartition delivered := by
    rw [deliveredTo_append, hbatch, deliveredTo_visible_ne hne, append_nil]
  have htot : partitionTotal r.topicPartition.partition (offsets ++ batchOffsets position batch) =
      partitionTotal r.topicPartition.partition offsets := by
    rw [batchOffsets]
    split
    · rw [append_nil]
    · exact partitionTotal_append_ne offsets hp
  refine ⟨h.topicPartition, h.start_le, h.le_stop, hd.trans h.sliced, ?_, ?_⟩
  · intro hn
    rw [hd]
    exact h.untouched (htot.symm.trans hn)
  · intro t ht
    obtain ⟨hc, hb⟩ := h.covered t (htot.symm.trans ht)
    refine ⟨⟨?_, ?_, ?_, hc.last⟩, hb⟩
    · exact hd.trans hc.sliced
    · rw [hd]
      exact hc.count
    · rw [hd]
      exact hc.bytes

variable {messages : List RawMessage} {pos next : ℕ} {last : RawMessage}

lemma Covers.merge {t : PartitionOffsets} (h : Covers topicLog r.topicPartition delivered t)
    (hsta : r.start ≤ t.startOffset) (hle : t.startOffset ≤ t.nextOffset)
    (hn : t.nextOffset ≤ pos)
    (hs : deliveredTo r.topicPartition delivered = topicLog.visible r.topicPartition r.start pos)
    (hm : messages = topicLog.visible r.topicPartition pos next)
    (hl : messages.getLast? = some last) :
    Covers topicLog r.topicPartition (delivered ++ messages)
      { partition := r.topicPartition.partition
        startOffset := t.startOffset
        nextOffset := last.offset + 1
        lastMessageOffset := last.offset
        messageCount := t.messageCount + messages.length
        payloadBytes := t.payloadBytes + payloadTotal messages } := by
  subst hm
  have hpos : pos ≤ last.offset := (mem_visible.mp (mem_of_getLast? hl)).2.1
  -- what was delivered ends with the total, so nothing lies between it and the batch
  have hgap : topicLog.visible r.topicPartition t.nextOffset pos = [] :=
    (topicLog.log r.topicPartition).slice_eq_nil_of_eq hsta hle hn (hs.symm.trans h.sliced)
  have hj : topicLog.visible r.topicPartition t.startOffset t.nextOffset ++
      topicLog.visible r.topicPartition pos (last.offset + 1) =
      topicLog.visible r.topicPartition t.startOffset (last.offset + 1) := by
    have hw := (topicLog.log r.topicPartition).slice_append hn (Nat.le_succ_of_le hpos)
    rw [← TopicLog.visible, hgap, nil_append, ← TopicLog.visible] at hw
    rw [hw]
    exact (topicLog.log r.topicPartition).slice_append hle (by omega)
  have hbatch : topicLog.visible r.topicPartition pos (last.offset + 1) =
      topicLog.visible r.topicPartition pos next :=
    (topicLog.log r.topicPartition).slice_succ_getLast hl
  refine ⟨?_, ?_, ?_, rfl⟩
  · rw [deliveredTo_append, h.sliced, deliveredTo_visible, ← hbatch]
    exact hj
  · rw [deliveredTo_append, deliveredTo_visible, length_append]
    exact congrArg (· + _) h.count
  · rw [deliveredTo_append, deliveredTo_visible, payloadTotal_append]
    exact congrArg (· + _) h.bytes

lemma Covers.first
    (hnil : deliveredTo tp delivered = []) (hm : messages = topicLog.visible tp pos next)
    (hl : messages.getLast? = some last) :
    Covers topicLog tp (delivered ++ messages)
      { partition := tp.partition
        startOffset := pos
        nextOffset := last.offset + 1
        lastMessageOffset := last.offset
        messageCount := messages.length
        payloadBytes := payloadTotal messages } := by
  subst hm
  have hd : deliveredTo tp (delivered ++ topicLog.visible tp pos next) =
      topicLog.visible tp pos next := by
    rw [deliveredTo_append, hnil, nil_append, deliveredTo_visible]
  refine ⟨?_, ?_, ?_, rfl⟩
  · rw [hd]
    exact ((topicLog.log tp).slice_succ_getLast hl).symm
  · rw [hd]
  · rw [hd]

lemma PartitionTracks.accept (h : PartitionTracks topicLog delivered offsets r p)
    (hle : p.nextOffset ≤ batch.nextPosition) (hstop : batch.nextPosition ≤ r.stop)
    (hbatch : batch.messages = topicLog.visible r.topicPartition p.nextOffset batch.nextPosition) :
    PartitionTracks topicLog (delivered ++ batch.messages) (offsets ++ batchOffsets p batch) r
      ⟨p.topicPartition, batch.nextPosition⟩ := by
  have hsli : deliveredTo r.topicPartition (delivered ++ batch.messages) =
      topicLog.visible r.topicPartition r.start batch.nextPosition := by
    rw [deliveredTo_append, h.sliced, hbatch, deliveredTo_visible]
    exact (topicLog.log r.topicPartition).slice_append h.start_le hle
  have hp : p.topicPartition.partition = r.topicPartition.partition := by
    rw [h.topicPartition]
  cases hl : batch.messages.getLast? with
  | none =>
    have he : batch.messages = [] := List.getLast?_eq_none_iff.mp hl
    have ho : batchOffsets p batch = [] := by rw [batchOffsets, hl]
    rw [he, append_nil] at hsli
    rw [he, append_nil, ho, append_nil]
    refine ⟨h.topicPartition, h.start_le.trans hle, hstop, hsli, h.untouched, ?_⟩
    intro t ht
    obtain ⟨hc, hs, hn, hpos⟩ := h.covered t ht
    exact ⟨hc, hs, hn, hpos.trans hle⟩
  | some last =>
    have hlt : p.nextOffset ≤ last.offset ∧ last.offset < batch.nextPosition := by
      have hmem := mem_of_getLast? hl
      rw [hbatch] at hmem
      exact (mem_visible.mp hmem).2
    have htot : partitionTotal r.topicPartition.partition (offsets ++ batchOffsets p batch) =
        some (mergeOffsets (partitionTotal r.topicPartition.partition offsets)
          { partition := r.topicPartition.partition
            startOffset := p.nextOffset
            nextOffset := last.offset + 1
            lastMessageOffset := last.offset
            messageCount := batch.messages.length
            payloadBytes := payloadTotal batch.messages }) := by
      rw [batchOffsets, hl, hp]
      exact partitionTotal_append_eq offsets rfl
    refine ⟨h.topicPartition, h.start_le.trans hle, hstop, hsli, ?_, ?_⟩
    · intro hnone
      rw [htot] at hnone
      cases hnone
    · intro t ht
      rw [htot] at ht
      cases hold : partitionTotal r.topicPartition.partition offsets with
      | none =>
        rw [hold] at ht
        cases ht
        exact ⟨.first (h.untouched hold) hbatch hl, h.start_le, Nat.le_succ_of_le hlt.1, hlt.2⟩
      | some old =>
        rw [hold] at ht
        cases ht
        obtain ⟨hc, hs, hn, hpos⟩ := h.covered old hold
        have hm := hc.merge hs hn hpos h.sliced hbatch hl
        refine ⟨hm, hs, ?_, hlt.2⟩
        exact hn.trans (hpos.trans (Nat.le_succ_of_le hlt.1))

variable {i : ℕ}

lemma partition_ne {j : ℕ} {r' : OffsetRange} (hr : plan.ranges[i]? = some r)
    (hr' : plan.ranges[j]? = some r') (hij : i ≠ j) :
    r.topicPartition ≠ r'.topicPartition ∧
      r.topicPartition.partition ≠ r'.topicPartition.partition := by
  have hne : r.topicPartition ≠ r'.topicPartition := by
    intro heq
    have hi : (plan.ranges.map OffsetRange.topicPartition)[i]? = some r.topicPartition := by
      rw [List.getElem?_map, hr, Option.map_some]
    have hj : (plan.ranges.map OffsetRange.topicPartition)[j]? = some r.topicPartition := by
      rw [List.getElem?_map, hr', Option.map_some, heq]
    obtain ⟨hlt, -⟩ := List.getElem?_eq_some_iff.mp hi
    exact hij ((List.getElem?_inj hlt plan.distinct).mp (hi.trans hj.symm))
  refine ⟨hne, fun hp => hne ?_⟩
  have ht := (plan.sameTopic r (mem_of_getElem? hr)).trans
    (plan.sameTopic r' (mem_of_getElem? hr')).symm
  obtain ⟨⟨topic', partition'⟩, _, _, _⟩ := r'
  cases ht
  cases hp
  rfl

variable {s : ReadState} {original : OffsetRange}

lemma map_sub_sub (limit : Option ℕ) (a b : ℕ) :
    (limit.map (· - a)).map (· - b) = limit.map (· - (a + b)) := by
  cases limit with
  | none => rfl
  | some n => exact congrArg some (Nat.sub_sub n a b)

lemma asked_request (h : Tracks plan topicLog delivered offsets s.cursor)
    (hasks : Asks plan s position original) :
    Asked plan (s.request plan position original hasks.more) := by
  have ht := h.partitions s.index original position hasks.ranges hasks.positions
  have hnot : s.messages.length < plan.limits.rowsPerPartition ∧
      s.payloadBytes < plan.limits.targetPartitionBytes := by
    simpa [full] using hasks.full
  refine ⟨⟨original, mem_of_getElem? hasks.ranges, ht.topicPartition, ht.start_le, rfl⟩,
    Nat.not_le.mp hasks.more, ?_, Nat.sub_pos_of_lt hnot.2, rfl, rfl, rfl⟩
  have hrows := Nat.sub_pos_of_lt hnot.1
  rw [request]
  cases hr : s.remainingMessages with
  | none => exact hrows
  | some n =>
    have hn : n ≠ 0 := fun hn => hasks.messages (hr.trans (congrArg some hn))
    exact Nat.lt_min.mpr ⟨hrows, Nat.pos_of_ne_zero hn⟩

lemma next_index_lt (hl : s.positions.length = plan.ranges.length) (hne : plan.ranges ≠ []) :
    (s.index + 1) % s.positions.length < plan.ranges.length := by
  refine (Nat.mod_lt _ ?_).trans_eq hl
  rw [hl]
  exact length_pos_iff.mpr hne

lemma Tracks.skip (h : Tracks plan topicLog delivered offsets s.cursor)
    (hreason : s.reason = none) :
    Tracks plan topicLog delivered offsets
      { s with index := (s.index + 1) % s.positions.length : ReadState}.cursor where
  __ := h
  index hne := next_index_lt h.length hne
  exhausted hstop := by
    rw [hreason] at hstop
    cases hstop

lemma add_le_of_budget {limit : Option ℕ} {spent extra : ℕ} (hs : ∀ n ∈ limit, spent ≤ n)
    (he : ∀ n ∈ limit.map (· - spent), extra ≤ n) : ∀ n ∈ limit, spent + extra ≤ n := by
  intro n hn
  have hle := hs n hn
  have hr := he (n - spent) (Option.mem_map_of_mem _ hn)
  omega

variable (h : Tracks plan topicLog delivered offsets s.cursor)
  (hpo : s.positions[s.index]? = some position)
  (hor : plan.ranges[s.index]? = some original)
  {hmore : ¬ original.stop ≤ position.nextOffset}
  (ha : Answers topicLog (s.request plan position original hmore) batch)

include h hpo hor ha

lemma Tracks.messages_eq : batch.messages =
    topicLog.visible original.topicPartition position.nextOffset batch.nextPosition := by
  rw [← (h.partitions s.index original position hor hpo).topicPartition]
  exact ha.messages

lemma Tracks.partitions_accept (hr : plan.ranges[i]? = some r)
    (hp : (s.positions.set s.index ⟨position.topicPartition, batch.nextPosition⟩)[i]? = some p) :
    PartitionTracks topicLog (delivered ++ batch.messages) (offsets ++ batchOffsets position batch)
      r p := by
  have hpos := h.partitions s.index original position hor hpo
  have hm := h.messages_eq hpo hor ha
  by_cases hi : s.index = i
  · subst hi
    cases hor.symm.trans hr
    rw [List.getElem?_set_self (List.getElem?_eq_some_iff.mp hpo).1] at hp
    cases hp
    exact hpos.accept ha.start_le ha.le_stop hm
  · rw [List.getElem?_set_ne hi] at hp
    obtain ⟨hne, hpar⟩ := partition_ne hr hor (Ne.symm hi)
    refine (h.partitions i r p hr hp).other ?_ ?_ (a := position.nextOffset)
      (b := batch.nextPosition) ?_
    · rwa [hpos.topicPartition]
    · rw [hpos.topicPartition]
      exact Ne.symm hpar
    · rw [hpos.topicPartition]
      exact hm

lemma Tracks.scanned_accept : (delivered ++ batch.messages).length + remainingOffsets plan
    (s.positions.set s.index ⟨position.topicPartition, batch.nextPosition⟩) ≤ offsetCount plan := by
  have hsta : position.nextOffset ≤ batch.nextPosition := ha.start_le
  have hstop : batch.nextPosition ≤ original.stop := ha.le_stop
  have hc : batch.messages.length ≤ batch.nextPosition - position.nextOffset := by
    rw [h.messages_eq hpo hor ha]
    exact (topicLog.log original.topicPartition).length_slice_le _ _
  have hr := total_zip_set (f := fun e => e.2.stop - e.1.nextOffset)
    (⟨position.topicPartition, batch.nextPosition⟩ : PartitionPosition) hpo hor
  have hs : delivered.length + remainingOffsets plan s.positions ≤ offsetCount plan :=
    h.scanned
  rw [remainingOffsets] at hs ⊢
  rw [length_append]
  dsimp only at hr
  omega

lemma Tracks.accept :
    Tracks plan topicLog (delivered ++ batch.messages) (offsets ++ batchOffsets position batch)
      (s.accept position batch).cursor := by
  have hpos := h.partitions s.index original position hor hpo
  have hl : s.positions.length = plan.ranges.length := h.length
  have hb : s.remainingMessages = plan.limits.maxMessages.map (· - delivered.length) :=
    h.messages
  have hbyt : s.remainingBytes = plan.limits.maxBytes.map (· - payloadTotal delivered) := h.bytes
  constructor
  case length => exact (length_set ..).trans hl
  case partitions =>
    intro i r p hr hp
    exact h.partitions_accept hpo hor ha hr hp
  case planned =>
    intro m hm
    obtain hm | hm := mem_append.mp hm
    · exact h.planned m hm
    · rw [h.messages_eq hpo hor ha] at hm
      rw [topicPartition_visible hm]
      exact mem_map_of_mem (mem_of_getElem? hor)
  case offsets_planned =>
    intro o ho
    obtain ho | ho := mem_append.mp ho
    · exact h.offsets_planned o ho
    · rw [batchOffsets] at ho
      split at ho
      · cases ho
      cases mem_singleton.mp ho
      rw [hpos.topicPartition]
      exact mem_map.mpr ⟨original, mem_of_getElem? hor, rfl⟩
  case scanned => exact h.scanned_accept hpo hor ha
  case messages =>
    rw [length_append, ← map_sub_sub, ← hb]
    rfl
  case messages_le =>
    rw [length_append]
    refine add_le_of_budget h.messages_le fun n hn => ?_
    have hrec := ha.records
    rw [request, hb, hn] at hrec
    exact hrec.trans (Nat.min_le_right ..)
  case bytes =>
    rw [payloadTotal_append, ← map_sub_sub, ← hbyt]
    rfl
  case bytes_le =>
    rw [payloadTotal_append]
    refine add_le_of_budget h.bytes_le fun n hn => ha.bytes n ?_
    rw [request, hbyt]
    exact hn
  case messageBytes =>
    intro m hm
    obtain hm | hm := mem_append.mp hm
    · exact h.messageBytes m hm
    · exact ha.messageBytes m hm
  case index => exact fun hne => next_index_lt hl hne
  case exhausted =>
    intro hreason
    have hreason : (if batch.byteLimitReached then some StopReason.maxBytes else none) =
        some .snapshotExhausted := hreason
    split at hreason <;> cases hreason

end

end Dvt.Kafka
