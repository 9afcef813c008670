import Dvt.Kafka.Consumption

/-! A read of the Kafka gateway: its polls, its early returns and the contract it meets. -/

namespace Dvt.Kafka

open Library List

variable {topicLog : TopicLog} {request : ReadRequest} {patience : ℕ}
variable {records : List RawMessage} {plan : ReadPlan}

structure Poll where
  records : List RawMessage
  position : ℕ

structure Consumer where
  poll : ℕ → IsolationLevel → TopicPartition → ℕ → ℕ → Except ReadError Poll
  bounds : ℕ → IsolationLevel → TopicPartition → ℕ × ℕ

structure PollState where
  messages : List RawMessage := []
  payloadBytes : ℕ := 0
  position : ℕ
  idle : ℕ := 0
  polls : ℕ := 0

inductive Taken
  | stop (batch : ReadBatch) (verified : ℕ)
  | more (s : PollState)

section

variable (consumer : Consumer) (patience : ℕ) (request : ReadRequest)

def Consumer.verifyRange (polls position : ℕ) : Bool :=
  let bounds := consumer.bounds polls request.isolationLevel request.offsetRange.topicPartition
  bounds.1 ≤ position ∧ request.offsetRange.stop ≤ bounds.2

def PollState.append (s : PollState) (record : RawMessage) : PollState :=
  { s with
    messages := s.messages ++ [record]
    payloadBytes := s.payloadBytes + record.payloadBytes
    position := record.offset + 1 }

def takeRecords : List RawMessage → PollState → Except ReadError Taken
  | [], s => .ok (.more s)
  | record :: records, s =>
    if request.offsetRange.stop ≤ record.offset then
      .ok (.stop ⟨s.messages, request.offsetRange.stop, false⟩ s.position)
    else if request.maxMessageBytes < record.payloadBytes ∨
        request.totalMaxBytes.any (· < record.payloadBytes) then
      .error .gateway
    else if request.maxBytes.any (· < s.payloadBytes + record.payloadBytes) then
      .ok (.stop ⟨s.messages, record.offset, true⟩ s.position)
    else if request.maxRecords ≤ (s.append record).messages.length ∨
        request.targetBytes ≤ (s.append record).payloadBytes then
      .ok (.stop ⟨(s.append record).messages, (s.append record).position, false⟩
        request.offsetRange.start)
    else takeRecords records (s.append record)

def PollState.scan (s s' : PollState) (poll : Poll) : PollState :=
  let position := max s'.position (min poll.position request.offsetRange.stop)
  { s' with
    position
    idle := if s.position < position then 0 else s.idle + 1
    polls := s.polls + 1 }

def readLoop : ℕ → PollState → Except ReadError ReadBatch
  | 0, _ => .error .gateway
  | fuel + 1, s =>
    if s.position < request.offsetRange.stop then
      match consumer.poll s.polls request.isolationLevel request.offsetRange.topicPartition
          s.position (request.maxRecords - s.messages.length) with
      | .error error => .error error
      | .ok poll =>
        match takeRecords request poll.records s with
        | .error error => .error error
        | .ok (.stop batch position) =>
          if consumer.verifyRange request s.polls position then .ok batch else .error .gateway
        | .ok (.more s') =>
          -- the time without progress is counted in polls
          if patience < (s.scan request s' poll).idle then .error .gateway
          else readLoop fuel (s.scan request s' poll)
    else if consumer.verifyRange request s.polls request.offsetRange.start then
      .ok ⟨s.messages, s.position, false⟩
    else .error .gateway

def Consumer.read : Except ReadError ReadBatch :=
  let range := request.offsetRange
  if request.maxRecords = 0 ∨ request.targetBytes = 0 ∨ request.maxMessageBytes = 0 then
    .error .gateway
  else if range.start = range.stop then .ok ⟨[], range.start, false⟩
  else if consumer.verifyRange request 0 range.start then
    readLoop consumer patience request ((range.stop - range.start + 1) * (patience + 2))
      { position := range.start }
  else .error .gateway

end

def kafkaGateway (consumers : ℕ → Consumer) (patience : ℕ) : Gateway :=
  fun call request => (consumers call).read patience request

variable {consumer : Consumer}

def Consumer.Follows (consumer : Consumer) (level : IsolationLevel) (topicLog : TopicLog) : Prop :=
  ∀ n tp position maxRecords poll, consumer.poll n level tp position maxRecords = .ok poll →
    position ≤ poll.position ∧ poll.records = topicLog.visible tp position poll.position ∧
      poll.records.length ≤ maxRecords

structure Polling (topicLog : TopicLog) (request : ReadRequest) (s : PollState) : Prop where
  start_le : request.offsetRange.start ≤ s.position
  le_stop : s.position ≤ request.offsetRange.stop
  messages : s.messages = topicLog.visible request.offsetRange.topicPartition
    request.offsetRange.start s.position
  records : s.messages.length ≤ request.maxRecords
  payload : s.payloadBytes = payloadTotal s.messages
  bytes : ∀ n ∈ request.maxBytes, s.payloadBytes ≤ n
  messageBytes : ∀ m ∈ s.messages, m.payloadBytes ≤ request.maxMessageBytes

variable {s : PollState} {batch : ReadBatch}

lemma Polling.answers (h : Polling topicLog request s)
    (hm : batch.messages = s.messages) (hle : s.position ≤ batch.nextPosition)
    (hstop : batch.nextPosition ≤ request.offsetRange.stop)
    (hgap : topicLog.visible request.offsetRange.topicPartition s.position batch.nextPosition = [])
    (hp : batch.byteLimitReached = false →
      request.offsetRange.start < batch.nextPosition) : Answers topicLog request batch := by
  refine ⟨h.start_le.trans hle, hstop, ?_, ?_, ?_, ?_, hp⟩
  · have ha := (topicLog.log request.offsetRange.topicPartition).slice_append h.start_le hle
    rw [hm, h.messages]
    change topicLog.visible .. ++ topicLog.visible .. = _ at ha
    rwa [hgap, append_nil] at ha
  · rw [hm]
    exact h.records
  · rw [hm, ← h.payload]
    exact h.bytes
  · rw [hm]
    exact h.messageBytes

lemma Polling.append {record : RawMessage} (h : Polling topicLog request s)
    (hposition : s.position ≤ record.offset)
    (hrec : topicLog.visible request.offsetRange.topicPartition s.position (record.offset + 1) =
      [record]) (hstop : record.offset < request.offsetRange.stop)
    (hs : record.payloadBytes ≤ request.maxMessageBytes)
    (hb : ∀ n ∈ request.maxBytes, s.payloadBytes + record.payloadBytes ≤ n)
    (hr : s.messages.length < request.maxRecords) :
    Polling topicLog request (s.append record) where
  start_le := h.start_le.trans (Nat.le_succ_of_le hposition)
  le_stop := hstop
  messages := by
    have ha := (topicLog.log request.offsetRange.topicPartition).slice_append h.start_le
      (Nat.le_succ_of_le hposition)
    rw [PollState.append, h.messages, ← hrec]
    exact ha
  records := by
    rw [PollState.append, length_append]
    exact hr
  payload := by
    rw [PollState.append, payloadTotal_append, h.payload]
    rfl
  bytes := hb
  messageBytes m hm := by
    obtain hm | hm := mem_append.mp hm
    · exact h.messageBytes m hm
    · cases mem_singleton.mp hm
      exact hs

def Taken.Sound (topicLog : TopicLog) (request : ReadRequest) (s : PollState) (position : ℕ) :
    Taken → Prop
  | .stop batch _ => Answers topicLog request batch
  | .more s' => Polling topicLog request s' ∧ s'.messages.length < request.maxRecords ∧
      s.position ≤ s'.position ∧ s'.position ≤ position ∧
        topicLog.visible request.offsetRange.topicPartition s'.position position = []

lemma takeRecords_sound (hran : request.offsetRange.start < request.offsetRange.stop)
    {position : ℕ} {taken : Taken}
    (h : Polling topicLog request s) (hroom : s.messages.length < request.maxRecords)
    (hle : s.position ≤ position)
    (hr : topicLog.visible request.offsetRange.topicPartition s.position position = records)
    (hok : takeRecords request records s = .ok taken) :
    taken.Sound topicLog request s position := by
  induction records generalizing s with
  | nil =>
    cases hok
    exact ⟨h, hroom, Nat.le_refl _, hle, hr⟩
  | cons record records ih =>
    obtain ⟨hb, hsin, hrest⟩ :=
      (topicLog.log request.offsetRange.topicPartition).slice_cons hr
    obtain ⟨_, hposition, hlt⟩ := (topicLog.log request.offsetRange.topicPartition).mem_slice.mp
      (show record ∈ topicLog.visible _ s.position position by simp [hr])
    rw [takeRecords] at hok
    split at hok
    · -- the record lies past the range, which is thereby scanned to its end
      next hpast =>
      cases hok
      exact h.answers rfl h.le_stop (Nat.le_refl _)
        ((topicLog.log _).slice_eq_nil_of_le h.le_stop hpast hb) fun _ => hran
    · next hpast =>
      have hstop := Nat.not_le.mp hpast
      split at hok
      · cases hok
      · next hf =>
        have hsize : record.payloadBytes ≤ request.maxMessageBytes :=
          Nat.not_lt.mp fun hlar => hf (.inl hlar)
        split at hok
        · cases hok
          exact h.answers rfl hposition hstop.le hb nofun
        · next hbud =>
          have hbyt : ∀ n ∈ request.maxBytes, s.payloadBytes + record.payloadBytes ≤ n := by
            intro n hn
            rw [hn, Option.any_some, decide_eq_true_eq] at hbud
            exact Nat.not_lt.mp hbud
          have ha := h.append hposition hsin hstop hsize hbyt hroom
          split at hok
          · cases hok
            exact ha.answers rfl (Nat.le_refl _) hstop
              ((topicLog.log _).slice_self _) fun _ => Nat.lt_succ_of_le (h.start_le.trans hposition)
          · next hmore =>
            have hroom' := Nat.not_le.mp fun hfull => hmore (.inl hfull)
            have hs := ih ha hroom' hlt hrest hok
            cases taken with
            | stop batch verified => exact hs
            | more s' =>
              obtain ⟨hp, hl, hfrom, hto⟩ := hs
              exact ⟨hp, hl, hposition.trans ((Nat.le_succ _).trans hfrom), hto⟩

lemma Polling.scan {s' : PollState} {poll : Poll}
    (ht : (Taken.more s').Sound topicLog request s poll.position) :
    Polling topicLog request (s.scan request s' poll) := by
  obtain ⟨hp, _, _, hto, hgap⟩ := ht
  have hle : s'.position ≤ (s.scan request s' poll).position := Nat.le_max_left ..
  have hn : (s.scan request s' poll).position ≤ poll.position :=
    Nat.max_le.mpr ⟨hto, Nat.min_le_left ..⟩
  refine ⟨hp.start_le.trans hle, ?_, ?_, hp.records, hp.payload, hp.bytes, hp.messageBytes⟩
  · exact Nat.max_le.mpr ⟨hp.le_stop, Nat.min_le_right ..⟩
  · have ha := (topicLog.log request.offsetRange.topicPartition).slice_append hp.start_le hle
    rw [(topicLog.log _).slice_eq_nil_of_le hle hn hgap, append_nil] at ha
    exact hp.messages.trans ha

lemma readLoop_answers (hf : consumer.Follows request.isolationLevel topicLog)
    (hr : request.offsetRange.start < request.offsetRange.stop) (fuel : ℕ) (s : PollState)
    (h : Polling topicLog request s) (hroom : s.messages.length < request.maxRecords)
    (hok : readLoop consumer patience request fuel s = .ok batch) :
    Answers topicLog request batch := by
  induction fuel generalizing s with
  | zero => cases hok
  | succ fuel ih =>
    rw [readLoop] at hok
    split at hok
    · split at hok
      · cases hok
      · next poll hp =>
        obtain ⟨hle, hrec, _⟩ := hf _ _ _ _ _ hp
        split at hok
        · cases hok
        · next batch' verified ht =>
          have hs := takeRecords_sound hr h hroom hle hrec.symm ht
          split at hok
          · cases hok
            exact hs
          · cases hok
        · next s' ht =>
          have hs := takeRecords_sound hr h hroom hle hrec.symm ht
          split at hok
          · cases hok
          · exact ih _ (Polling.scan hs) hs.2.1 hok
    · next hdone =>
      split at hok
      · cases hok
        have hend := Nat.le_antisymm h.le_stop (Nat.not_lt.mp hdone)
        exact h.answers rfl (Nat.le_refl _) h.le_stop ((topicLog.log _).slice_self _)
          fun _ => hr.trans_eq hend.symm
      · cases hok

lemma Polling.start (hmax : 0 < request.maxRecords) :
    Polling topicLog request { position := request.offsetRange.start } where
  start_le := Nat.le_refl _
  le_stop := request.offsetRange.start_le
  messages := ((topicLog.log _).slice_self _).symm
  records := hmax.le
  payload := rfl
  bytes _ _ := Nat.zero_le _
  messageBytes := nofun

theorem kafkaGateway_faithful {consumers : ℕ → Consumer}
    (hf : ∀ n, (consumers n).Follows plan.isolationLevel topicLog) :
    (kafkaGateway consumers patience).Faithful plan topicLog := by
  intro n request batch ha hok
  rw [kafkaGateway, Consumer.read] at hok
  split at hok
  · cases hok
  · split at hok
    · next he => exact absurd he ha.nonempty.ne
    · split at hok
      · have hf := hf n
        rw [← ha.isolationLevel] at hf
        exact readLoop_answers hf ha.nonempty _ _ (.start ha.maxRecords) ha.maxRecords hok
      · cases hok

structure Consumer.Prompt (consumer : Consumer) (request : ReadRequest) : Prop where
  poll : ∀ n position maxRecords, 0 < maxRecords → ∃ poll,
    consumer.poll n request.isolationLevel request.offsetRange.topicPartition position maxRecords =
      .ok poll ∧ position < poll.position
  kept : ∀ n position, request.offsetRange.start ≤ position →
    consumer.verifyRange request n position = true

def Fits (topicLog : TopicLog) (request : ReadRequest) : Prop :=
  ∀ m ∈ (topicLog.log request.offsetRange.topicPartition).entries,
    m.payloadBytes ≤ request.maxMessageBytes ∧ ∀ n ∈ request.totalMaxBytes, m.payloadBytes ≤ n

lemma takeRecords_available {s : PollState}
    (hf : ∀ m ∈ records, m.payloadBytes ≤ request.maxMessageBytes ∧
      ∀ n ∈ request.totalMaxBytes, m.payloadBytes ≤ n)
    (hfrom : ∀ m ∈ records, request.offsetRange.start ≤ m.offset)
    (hs : request.offsetRange.start ≤ s.position) :
    ∃ taken, takeRecords request records s = .ok taken ∧
      ∀ batch position, taken = .stop batch position → request.offsetRange.start ≤ position := by
  induction records generalizing s with
  | nil => exact ⟨.more s, rfl, nofun⟩
  | cons record records ih =>
    obtain ⟨hsize, ht⟩ := hf record mem_cons_self
    have hsma : ¬ (request.maxMessageBytes < record.payloadBytes ∨
        request.totalMaxBytes.any (· < record.payloadBytes) = true) := by
      rintro (hl | hl)
      · exact Nat.not_lt.mpr hsize hl
      · cases hlim : request.totalMaxBytes with
        | none =>
          rw [hlim] at hl
          cases hl
        | some n =>
          rw [hlim] at hl
          exact Nat.not_lt.mpr (ht n hlim) (of_decide_eq_true hl)
    rw [takeRecords]
    by_cases hp : request.offsetRange.stop ≤ record.offset
    · rw [if_pos hp]
      refine ⟨_, rfl, ?_⟩
      rintro _ _ ⟨⟩
      exact hs
    · rw [if_neg hp, if_neg hsma]
      split
      · refine ⟨_, rfl, ?_⟩
        rintro _ _ ⟨⟩
        exact hs
      · split
        · refine ⟨_, rfl, ?_⟩
          rintro _ _ ⟨⟩
          exact Nat.le_refl _
        · exact ih (fun m hm => hf m (mem_cons_of_mem _ hm))
            (fun m hm => hfrom m (mem_cons_of_mem _ hm))
            (Nat.le_succ_of_le (hfrom record mem_cons_self))

lemma readLoop_available (hf : consumer.Follows request.isolationLevel topicLog)
    (hp : consumer.Prompt request) (hfits : Fits topicLog request)
    (hran : request.offsetRange.start < request.offsetRange.stop) (fuel : ℕ) (s : PollState)
    (h : Polling topicLog request s) (hroom : s.messages.length < request.maxRecords)
    (hfuel : request.offsetRange.stop - s.position < fuel) :
    ∃ batch, readLoop consumer patience request fuel s = .ok batch := by
  induction fuel generalizing s with
  | zero => exact absurd hfuel (Nat.not_lt_zero _)
  | succ fuel ih =>
    rw [readLoop]
    by_cases hmore : s.position < request.offsetRange.stop
    · obtain ⟨poll, hpoll, hpro⟩ := hp.poll s.polls s.position _ (Nat.sub_pos_of_lt hroom)
      obtain ⟨hle, hr, _⟩ := hf _ _ _ _ _ hpoll
      have hmem : ∀ m ∈ poll.records,
          m ∈ (topicLog.log request.offsetRange.topicPartition).entries ∧ s.position ≤ m.offset := by
        intro m hm
        rw [hr] at hm
        obtain ⟨hentry, hposition, _⟩ := (topicLog.log _).mem_slice.mp hm
        exact ⟨hentry, hposition⟩
      obtain ⟨taken, ht, hv⟩ := takeRecords_available
        (fun m hm => hfits m (hmem m hm).1) (fun m hm => h.start_le.trans (hmem m hm).2) h.start_le
      have hs := takeRecords_sound hran h hroom hle hr.symm ht
      rw [if_pos hmore, hpoll]
      dsimp only
      rw [ht]
      cases taken with
      | stop batch position =>
        refine ⟨batch, if_pos ?_⟩
        exact hp.kept _ _ (hv batch position rfl)
      | more s' =>
        have hn : s.position < (s.scan request s' poll).position :=
          (Nat.lt_min.mpr ⟨hpro, hmore⟩).trans_le (Nat.le_max_right ..)
        have hi : (s.scan request s' poll).idle = 0 := if_pos hn
        dsimp only
        rw [hi]
        exact ih _ (Polling.scan hs) hs.2.1 (by omega)
    · rw [if_neg hmore, if_pos (hp.kept _ _ (Nat.le_refl _))]
      exact ⟨_, rfl⟩

lemma kafkaGateway_available {consumers : ℕ → Consumer}
    (hf : ∀ n, (consumers n).Follows plan.isolationLevel topicLog)
    (hp : ∀ n request, Asked plan request → (consumers n).Prompt request)
    (hfits : ∀ request, Asked plan request → Fits topicLog request) :
    (kafkaGateway consumers patience).Available plan := by
  intro n request ha
  have hf := hf n
  rw [← ha.isolationLevel] at hf
  have hp := hp n request ha
  have hv : ¬ (request.maxRecords = 0 ∨ request.targetBytes = 0 ∨ request.maxMessageBytes = 0) := by
    rintro (hz | hz | hz)
    · exact ha.maxRecords.ne' hz
    · exact ha.targetBytes.ne' hz
    · exact plan.limits.maxMessageBytes_pos.ne' (ha.maxMessageBytes.symm.trans hz)
  rw [kafkaGateway, Consumer.read, if_neg hv, if_neg ha.nonempty.ne,
    if_pos (hp.kept _ _ (Nat.le_refl _))]
  refine readLoop_available hf hp (hfits request ha) ha.nonempty _ _
    (.start ha.maxRecords) ha.maxRecords ?_
  calc request.offsetRange.stop - request.offsetRange.start
      < request.offsetRange.stop - request.offsetRange.start + 1 := Nat.lt_succ_self _
    _ ≤ _ := Nat.le_mul_of_pos_right _ (Nat.succ_pos _)

end Dvt.Kafka
