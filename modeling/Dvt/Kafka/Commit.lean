import Dvt.Kafka.Publication
import Dvt.Library.Lines

/-! Commits of summaries: the checks of one, and the offsets of the group over all of them. -/

namespace Dvt.Kafka

open Library List

inductive CommitStatus
  | unchanged | alreadyAhead | committed
  deriving DecidableEq, Repr

structure PartitionCommitResult where
  partition : ℕ
  requested : ℕ
  current : Option ℕ
  resulting : ℕ
  status : CommitStatus
  deriving DecidableEq, Repr

inductive CommitError
  | groupId | topic | clusterId | duplicatePartitions | unknownPartition | clusterMismatch
  | position (requested beginning last : ℕ)
  | gateway | cancelled
  deriving DecidableEq, Repr

def CommitError.message : CommitError → String
  | .groupId => "group_id must be nonempty"
  | .topic => "topic must be nonempty"
  | .clusterId => "cluster_id must be nonempty when provided"
  | .duplicatePartitions => "Duplicate partitions"
  | .unknownPartition => "Unknown Kafka partition"
  | .clusterMismatch => "Kafka cluster context mismatch or unavailable"
  | .position requested beginning last =>
    s!"Position {requested} is outside available range [{beginning}, {last}]"
  | .gateway => "Kafka gateway failed"
  | .cancelled => "cancelled"

/-- Committed offsets by group; commits run one at a time, as a group has one owner. -/
abbrev Committed := String → TopicPartition → Option ℕ

/-- A commit that fails may have saved some positions. -/
structure CommitWorld where
  partitions : Except CommitError (List ℕ)
  clusterId : Except CommitError (Option String)
  bounds : Except CommitError (TopicPartition → ℕ × ℕ)
  committedFails : Bool := false
  savedOnFailure : Option (TopicPartition → Bool) := none
  cancelled : ℕ → Bool := fun _ => false

def blank (text : String) : Bool := text.toList.all isSpace

def validatePosition (position beginning last : ℕ) : Except CommitError ℕ :=
  if beginning ≤ position ∧ position ≤ last then .ok position
  else .error (.position position beginning last)

def monotonicCommit (partition requested : ℕ) (current : Option ℕ) (last : ℕ) :
    Except CommitError PartitionCommitResult :=
  match validatePosition requested 0 last with
  | .error error => .error error
  | .ok _ =>
    match current with
    | none => .ok ⟨partition, requested, none, requested, .committed⟩
    | some n =>
      if requested ≤ n then
        .ok ⟨partition, requested, n, n, if n = requested then .unchanged else .alreadyAhead⟩
      else .ok ⟨partition, requested, n, requested, .committed⟩

section

variable (world : CommitWorld) (committed : Committed) (offsets : ReadSummary)

def checkpoint {α : Type} (number : ℕ) (next : Except CommitError α) : Except CommitError α :=
  if world.cancelled number then .error .cancelled else next

def ReadSummary.topicPartition (part : PartitionOffsets) : TopicPartition :=
  ⟨offsets.topic, part.partition⟩

def validateSummary : Except CommitError Unit :=
  if blank offsets.groupId then .error .groupId
  else if blank offsets.topic then .error .topic
  else if offsets.clusterId.any blank then .error .clusterId
  else if (offsets.partitions.map PartitionOffsets.partition).Nodup then .ok ()
  else .error .duplicatePartitions

def checkContext : Except CommitError Unit :=
  match world.partitions with
  | .error error => .error error
  | .ok available =>
    if offsets.partitions.any fun part => part.partition ∉ available then .error .unknownPartition
    else
      match offsets.clusterId with
      | none => .ok ()
      | some expected => checkpoint world 2 <|
        match world.clusterId with
        | .error error => .error error
        | .ok actual => if actual = some expected then .ok () else .error .clusterMismatch

def decisions : Except CommitError (List PartitionCommitResult) :=
  checkpoint world 4 <|
    match world.bounds with
    | .error error => .error error
    | .ok bounds => checkpoint world 5 <|
      if world.committedFails then .error .gateway
      else offsets.partitions.mapM fun part =>
        let tp := offsets.topicPartition part
        monotonicCommit part.partition part.nextOffset (committed offsets.groupId tp) (bounds tp).2

def submit (results : List PartitionCommitResult) : Committed := fun group tp =>
  match results.find? fun result =>
      result.status = .committed ∧ tp = ⟨offsets.topic, result.partition⟩ with
  | none => committed group tp
  | some result =>
    if group = offsets.groupId ∧ world.savedOnFailure.all fun saved => saved tp then
      some result.requested
    else committed group tp

def prepare : Except CommitError Unit :=
  checkpoint world 0 <|
    match validateSummary offsets with
    | .error error => .error error
    | .ok () => checkpoint world 1 (checkContext world offsets)

def execute : Except CommitError (List PartitionCommitResult) × Committed :=
  match prepare world offsets with
  | .error error => (.error error, committed)
  | .ok () =>
    if offsets.partitions = [] then (checkpoint world 3 (.ok []), committed)
    else
      match decisions world committed offsets with
      | .error error => (.error error, committed)
      | .ok results =>
        if world.cancelled 6 then (.error .cancelled, committed)
        else if results.any fun result => result.status = .committed then
          let saved := submit world committed offsets results
          if world.savedOnFailure.isSome then (.error .gateway, saved)
          else (checkpoint world 7 (.ok results), saved)
        else (checkpoint world 7 (.ok results), committed)

end

variable {world : CommitWorld} {committed : Committed} {offsets : ReadSummary}
variable {result : PartitionCommitResult}

lemma monotonicCommit_committed {partition requested last : ℕ} {current : Option ℕ}
    (h : monotonicCommit partition requested current last = .ok result) :
    result.partition = partition ∧ result.requested = requested ∧
      (result.status = .committed → ∀ n, current = some n → n < requested) := by
  rw [monotonicCommit.eq_def] at h
  split at h
  · cases h
  · split at h
    · cases h
      exact ⟨rfl, rfl, fun _ _ => nofun⟩
    · next n =>
      split at h
      · cases h
        refine ⟨rfl, rfl, fun hs => ?_⟩
        split at hs <;> cases hs
      · next hlt =>
        cases h
        refine ⟨rfl, rfl, fun _ m hm => ?_⟩
        cases hm
        exact Nat.not_le.mp hlt

lemma checkpoint_ok {α : Type} {number : ℕ} {next : Except CommitError α} {a : α}
    (h : checkpoint world number next = .ok a) : next = .ok a := by
  rw [checkpoint] at h
  split at h
  · cases h
  · exact h

variable {results : List PartitionCommitResult}

lemma decisions_committed (h : decisions world committed offsets = .ok results)
    (hresult : result ∈ results) :
    ∃ part ∈ offsets.partitions, result.partition = part.partition ∧
      result.requested = part.nextOffset ∧ (result.status = .committed →
        ∀ n, committed offsets.groupId (offsets.topicPartition part) = some n →
          n < part.nextOffset) := by
  have h := checkpoint_ok h
  split at h
  · cases h
  · have h := checkpoint_ok h
    split at h
    · cases h
    · obtain ⟨part, hpart, hd⟩ := mem_map.mp (mapM_eq_ok.mp h ▸ mem_map_of_mem hresult)
      obtain ⟨hp, hr, hlt⟩ := monotonicCommit_committed hd
      exact ⟨part, hpart, hp, hr, hlt⟩

inductive Commits (committed : Committed) (offsets : ReadSummary) (group : String)
    (tp : TopicPartition) : Option ℕ → Prop
  | kept : Commits committed offsets group tp (committed group tp)
  | raised {part : PartitionOffsets} (hpart : part ∈ offsets.partitions)
      (hgroup : group = offsets.groupId) (htp : tp = offsets.topicPartition part)
      (hlt : ∀ n, committed group tp = some n → n < part.nextOffset) :
      Commits committed offsets group tp (some part.nextOffset)

lemma submit_commits
    (h : decisions world committed offsets = .ok results) (group : String) (tp : TopicPartition) :
    Commits committed offsets group tp (submit world committed offsets results group tp) := by
  rw [submit]
  split
  · exact .kept
  · next result hfind =>
    split
    · next hs =>
      have hmem := mem_of_find?_eq_some hfind
      have hf := List.find?_some hfind
      rw [decide_eq_true_eq] at hf
      obtain ⟨hsta, htp⟩ := hf
      obtain ⟨part, hpart, hp, hr, hlt⟩ := decisions_committed h hmem
      rw [hp] at htp
      rw [hr]
      refine .raised hpart hs.1 htp fun n hn => ?_
      rw [hs.1, htp] at hn
      exact hlt hsta n hn
    · exact .kept

lemma execute_commits (world : CommitWorld) (committed : Committed) (offsets : ReadSummary)
    (group : String) (tp : TopicPartition) :
    Commits committed offsets group tp ((execute world committed offsets).2 group tp) := by
  rw [execute]
  split
  · exact .kept
  · split
    · exact .kept
    · split
      · exact .kept
      · next results hr =>
        split
        · exact .kept
        · split
          · split <;> exact submit_commits hr group tp
          · exact .kept

def Committed.Le (before after : Committed) : Prop :=
  ∀ group tp n, before group tp = some n → ∃ m, after group tp = some m ∧ n ≤ m

lemma Committed.Le.refl (committed : Committed) : committed.Le committed :=
  fun _ _ n hn => ⟨n, hn, Nat.le_refl n⟩

lemma Committed.Le.trans {a b c : Committed} (hab : a.Le b) (hbc : b.Le c) : a.Le c := by
  intro group tp n hn
  obtain ⟨m, hm, hnm⟩ := hab group tp n hn
  obtain ⟨k, hk, hmk⟩ := hbc group tp m hm
  exact ⟨k, hk, hnm.trans hmk⟩

def commit (committed : Committed) (call : CommitWorld × ReadSummary) : Committed :=
  (execute call.1 committed call.2).2

lemma commit_le (committed : Committed) (call : CommitWorld × ReadSummary) :
    committed.Le (commit committed call) := by
  intro group tp n hn
  have hc := execute_commits call.1 committed call.2 group tp
  rw [commit]
  generalize (execute call.1 committed call.2).2 group tp = after at hc
  cases hc with
  | kept => exact ⟨n, hn, Nat.le_refl n⟩
  | raised hpart hgroup htp hlt => exact ⟨_, rfl, (hlt n hn).le⟩

lemma run_commit_le (committed : Committed) (calls : List (CommitWorld × ReadSummary)) :
    committed.Le (run commit committed calls) := by
  induction calls generalizing committed with
  | nil => exact .refl committed
  | cons call calls ih => exact (commit_le committed call).trans (ih _)

theorem committed_offsets_delivered {gateway : Gateway} {plan : ReadPlan} {topicLog : TopicLog}
    (fingerprint : List RawMessage → String) (slots : ℕ)
    (hfaithful : gateway.Faithful plan topicLog) (events : List ReaderEvent) :
    (∀ before summary, before ++ [.publish summary] <+:
      (run (Reader.step gateway plan fingerprint slots) {} events).log →
        Published plan topicLog slots before summary) ∧
    (∀ world committed offsets group tp,
      Commits committed offsets group tp ((execute world committed offsets).2 group tp)) ∧
    ∀ committed calls calls',
      (run commit committed calls).Le (run commit committed (calls ++ calls')) := by
  refine ⟨(Sound.run fingerprint hfaithful events).published, execute_commits, ?_⟩
  intro committed calls calls'
  rw [run_append]
  exact run_commit_le _ calls'

def sampleCalls : List ReaderEvent :=
  (List.range 8).flatMap fun n => [.read n false, .read n false, .deliver n false false]

theorem committed_offsets_sampleCalls :
    (run (Reader.step sampleGateway samplePlan (fun _ => "") 8) {} sampleCalls).published = true ∧
      ∀ before summary, before ++ [.publish summary] <+:
        (run (Reader.step sampleGateway samplePlan (fun _ => "") 8) {} sampleCalls).log →
          Published samplePlan sampleLog 8 before summary :=
  ⟨by decide +kernel, (committed_offsets_delivered (fun _ => "") 8 sampleGateway_faithful
    sampleCalls).1⟩

end Dvt.Kafka
