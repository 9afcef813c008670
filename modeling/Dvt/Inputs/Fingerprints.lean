import Dvt.Inputs.Building
import Mathlib.Data.String.Basic

/-! Fingerprints of node inputs, and when equal ones mean equal inputs. -/

namespace Dvt.Inputs

open Library List Dict
open Pipelines (NodeInputLinkValue)

variable {α δ β τ : Type}

/-- Bytes `β` and the digests `δ` of a hash function without collisions; texts, lists and
dictionaries of digests, and leaf objects under the name of their class are serialised. -/
structure Hashing (α δ β : Type) where
  utf8 : String → β
  dumpsList : List δ → β
  dumpsDict : List (String × δ) → β
  tagged : α → β
  variableBytes : String → δ → β
  unresolvedBytes : String → β
  str : Value α → String
  sorted : List δ → List δ
  blake3 : β → δ
  utf8_injective : utf8.Injective
  dumpsList_injective : dumpsList.Injective
  dumpsDict_injective : dumpsDict.Injective
  blake3_injective : blake3.Injective

section

variable (hashing : Hashing α δ β)

def Hashing.key : Value α → String
  | .text s => s
  | value => hashing.str value

def dictPayload (pairs : List (String × δ)) : List (String × δ) :=
  ((pairs.mergeSort fun a b => a.1 ≤ b.1).foldl (fun d e => d.set e.1 e.2) Dict.empty).entries

mutual

def serialise : Value α → β
  | .none => hashing.utf8 "None"
  | .ellipsis => hashing.utf8 "Ellipsis"
  | .text s => hashing.utf8 s
  | .atom a => hashing.tagged a
  | .list xs => hashing.dumpsList (getHashes xs)
  | .tuple xs => hashing.dumpsList (getHashes xs)
  | .set xs => hashing.dumpsList (hashing.sorted (getHashes xs))
  | .dict entries => hashing.dumpsDict (dictPayload (getEntryHashes entries))
  | .variable name value => hashing.variableBytes name (hashing.blake3 (serialise value))
  | .unresolved reason => hashing.unresolvedBytes reason

def getHashes : List (Value α) → List δ
  | [] => []
  | value :: values => hashing.blake3 (serialise value) :: getHashes values

def getEntryHashes : List (Value α × Value α) → List (String × δ)
  | [] => []
  | (key, value) :: entries =>
    (hashing.key key, hashing.blake3 (serialise value)) :: getEntryHashes entries

end

def getHash (value : Value α) : δ := hashing.blake3 (serialise hashing value)

def parentItems (parentHashes : Dict String String) : Value α :=
  .list (parentHashes.sortedItems.map fun item => .tuple [.text item.1, .text item.2])

def constantItems (constants : Dict String (Value α)) : Value α :=
  .list (constants.sortedItems.map fun item => .tuple [.text item.1, item.2])

def createNodeInputsFingerprint (nodeName : String) (parentHashes : Dict String String)
    (constants : Dict String (Value α)) : δ :=
  getHash hashing (.dict ([(.text "node_name", .text nodeName)] ++
    (if parentHashes.entries.isEmpty then []
      else [(.text "parent_hashes", parentItems parentHashes)]) ++
    (if constants.entries.isEmpty then []
      else [(.text "constant_inputs", constantItems constants)])))

end

section

variable {hashing : Hashing α δ β}

variable {xs ys : List (Value α)}

variable {parents parents' : Dict String String}

variable {constants : Dict String (Value α)} {constants' : Dict String (Value α)}

variable {nodeName : String}

end

structure NodeRun (α τ : Type) where
  nodeId : String
  node : NodeClass α τ
  inputs : Dict String (NodeInput α)
  hashes : OutputHashes
  evaluator : Evaluator α τ
  moment : ℕ
  mode : ExecutionMode
  runtimeVariables : Variables α
  parentHashes : Dict String String
  constants : Dict String (Value α)
  gathered : gatherParentHashesAndConstants evaluator nodeId node moment mode hashes inputs
    runtimeVariables = .ok (parentHashes, constants)

def NodeRun.fingerprint (hashing : Hashing α δ β) (r : NodeRun α τ) : δ :=
  createNodeInputsFingerprint hashing r.node.name r.parentHashes r.constants

section

variable (r : NodeRun α τ)

def NodeRun.placed : List (Option (String × ℕ) × NodeInputLinkValue) :=
  r.inputs.entries.flatMap fun entry => placedLinks entry.1 entry.2.linkValues

def NodeRun.several (name : String) : List NodeInputLinkValue :=
  match r.inputs.get? name with
  | some (.links first (second :: rest)) => first :: second :: rest
  | _ => []

end

variable {r x y : NodeRun α τ} {name : String}

variable {index : ℕ} {link : NodeInputLinkValue} {hash key : String}

end Dvt.Inputs
