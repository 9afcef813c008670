import Dvt.Pipelines.Graph
import Mathlib.Data.List.Induction

/-! The inputs of a built node, handle by handle. -/

namespace Dvt.Pipelines

open Library List Dict

def linkHandles (edge : GraphEdgeRecord) : Option (String × String) :=
  match edge.targetHandle.map (removeText "input-"), edge.sourceHandle.map (removeText "output-") with
  | some targetHandle, some sourceHandle =>
    if targetHandle ≠ "" ∧ sourceHandle ≠ "" then some (targetHandle, sourceHandle) else none
  | _, _ => none

def linkInto (handle : String) (edge : GraphEdgeRecord) : Option NodeInputLinkValue :=
  (linkHandles edge).bind fun handles =>
    if handles.1 = handle then some ⟨edge.source, handles.2⟩ else none

def linksInto (handle : String) (edges : List GraphEdgeRecord) : List NodeInputLinkValue :=
  edges.filterMap (linkInto handle)

def existingLinks (value : Option NodeRuntimeInputValue) : List NodeInputLinkValue :=
  value.elim [] iterNodeInputLinkValues

def attach (multiple : Bool) (value : Option NodeRuntimeInputValue) (link : NodeInputLinkValue) :
    Option NodeRuntimeInputValue :=
  some (if multiple ∧ existingLinks value ≠ [] then .links (existingLinks value ++ [link])
    else .link link)

variable {reg : Registry} {name handle : String} {inputs : Dict String NodeRuntimeInputValue}

lemma connect_get? (edge : GraphEdgeRecord) : (connect reg name inputs edge).get? handle =
    ((linkInto handle edge).filter (·.nodeId ≠ "")).elim (inputs.get? handle)
      (attach (allowsMultipleConnections reg name handle) (inputs.get? handle)) := by
  rw [connect, linkInto, linkHandles]
  cases ht : edge.targetHandle.map (removeText "input-") with
  | none => rfl
  | some targetHandle =>
    cases hs : edge.sourceHandle.map (removeText "output-") with
    | none => rfl
    | some sourceHandle =>
      dsimp only
      by_cases hh : targetHandle ≠ "" ∧ sourceHandle ≠ ""
      · by_cases he : edge.source = ""
        · rw [if_pos hh]
          by_cases hi : targetHandle = handle <;> simp [hi, he, Option.filter]
        · rw [if_pos ⟨hh.1, he, hh.2⟩, if_pos hh, Option.bind_some]
          by_cases hi : targetHandle = handle
          · subst hi
            simp only [if_true, Option.filter_some, ne_eq, he]
            split
            · next h =>
              rw [get?_set, if_pos rfl]
              exact congrArg some (if_pos h).symm
            · next h =>
              rw [get?_set, if_pos rfl]
              exact congrArg some (if_neg h).symm
          · rw [if_neg hi, Option.filter_none, Option.elim_none]
            split <;> rw [get?_set, if_neg (Ne.symm hi)]
      · rw [if_neg fun h => hh ⟨h.1, h.2.2⟩, if_neg hh]
        rfl

lemma foldl_connect_get? (edges : List GraphEdgeRecord) :
    (edges.foldl (connect reg name) inputs).get? handle =
      ((linksInto handle edges).filter (·.nodeId ≠ "")).foldl
        (attach (allowsMultipleConnections reg name handle)) (inputs.get? handle) := by
  induction edges generalizing inputs with
  | nil => rfl
  | cons edge edges ih =>
    have hcons : linksInto handle (edge :: edges) =
        (linkInto handle edge).toList ++ linksInto handle edges := by
      rw [linksInto, filterMap_cons]
      cases linkInto handle edge <;> rfl
    rw [foldl_cons, ih, connect_get?, hcons]
    cases linkInto handle edge with
    | none => rfl
    | some link =>
      by_cases he : link.nodeId = ""
      · simp [he, Option.filter]
      · simp [he, Option.filter]

def storedValue : Option NodeRuntimeInputValue → Option NodeRuntimeInputValue
  | some (.link _) => none
  | value => value

lemma storeInput_get? (e : String × Option NodeRuntimeInputValue) :
    (storeInput inputs e).get? handle =
      if e.1 = handle then (storedValue e.2).or (inputs.get? handle) else inputs.get? handle := by
  obtain ⟨inputName, value⟩ := e
  by_cases h : inputName = handle
  · subst h
    rw [if_pos rfl]
    cases value with
    | none => rfl
    | some value => cases value <;> simp [storeInput, storedValue, get?_set]
  · rw [if_neg h]
    cases value with
    | none => rfl
    | some value => cases value <;> simp [storeInput, get?_set, Ne.symm h]

lemma foldl_storeInput_get? {entries : List (String × Option NodeRuntimeInputValue)}
    (hn : (entries.map Prod.fst).Nodup) :
    (entries.foldl storeInput inputs).get? handle =
      (((entries.find? fun e => e.1 = handle).map Prod.snd).bind storedValue).or
        (inputs.get? handle) := by
  induction entries generalizing inputs with
  | nil => rfl
  | cons e entries ih =>
    obtain ⟨hnew, hn⟩ := nodup_cons.mp hn
    rw [foldl_cons, ih hn, storeInput_get?]
    by_cases h : e.1 = handle
    · have hnone : (entries.find? fun e => e.1 = handle) = none := by
        rw [List.find?_eq_none]
        intro e' he' heq
        refine hnew (mem_map.mpr ⟨e', he', ?_⟩)
        rw [of_decide_eq_true heq, h]
      simp [h, hnone]
    · simp [h]

lemma storedInputs_get? (node : GraphNodeRecord) :
    (storedInputs node).get? handle = (node.inputValues.get? handle).bind storedValue := by
  rw [storedInputs, foldl_storeInput_get? node.inputValues.nodup, get?_empty, Option.or_none]
  rfl

variable {links : List NodeInputLinkValue} {value : Option NodeRuntimeInputValue}

lemma foldl_attach_single (links : List NodeInputLinkValue) (value : Option NodeRuntimeInputValue) :
    links.foldl (attach false) value = (links.getLast?.map .link).or value := by
  induction links using List.reverseRecOn with
  | nil => rfl
  | append_singleton links link ih =>
    rw [foldl_append, List.getLast?_concat]
    rfl

lemma existingLinks_foldl_attach (links : List NodeInputLinkValue)
    (hvalue : existingLinks value = []) :
    existingLinks (links.foldl (attach true) value) = links := by
  induction links using List.reverseRecOn with
  | nil => exact hvalue
  | append_singleton links link ih =>
    rw [foldl_append, foldl_cons, attach, ih]
    by_cases h : links = []
    · simp [h, existingLinks, iterNodeInputLinkValues]
    · simp [h, existingLinks, iterNodeInputLinkValues]

lemma mem_existingLinks_foldl_attach {multiple : Bool} {l : NodeInputLinkValue}
    (h : l ∈ existingLinks (links.foldl (attach multiple) value)) :
    l ∈ existingLinks value ∨ l ∈ links := by
  induction links using List.reverseRecOn with
  | nil => exact .inl h
  | append_singleton links link ih =>
    rw [foldl_append, foldl_cons, attach] at h
    split at h
    · obtain h | h := mem_append.mp h
      · exact (ih h).imp_right (mem_append_left _)
      · exact .inr (mem_append_right _ h)
    · exact .inr (mem_append_right _ h)

variable {edges : List GraphEdgeRecord} {node : GraphNodeRecord}

lemma toNodeData_get? : (toNodeData reg edges node).inputs.get? handle =
    ((linksInto handle (edges.filter fun e => e.target = node.uiId)).filter (·.nodeId ≠ "")).foldl
      (attach (allowsMultipleConnections reg node.name handle))
      ((node.inputValues.get? handle).bind storedValue) := by
  rw [toNodeData, foldl_connect_get?, storedInputs_get?]

lemma existingLinks_stored (hl : ∀ v ∈ node.inputValues.values, isLinkList v = false) :
    existingLinks ((node.inputValues.get? handle).bind storedValue) = [] := by
  cases hget : node.inputValues.get? handle with
  | none => rfl
  | some value =>
    have hnot := hl value (mem_values.mpr ⟨handle, hget⟩)
    obtain _ | (_ | _ | _ | _) := value <;> first | rfl | cases hnot

end Dvt.Pipelines
