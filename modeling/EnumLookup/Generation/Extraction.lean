import EnumLookup.Generation.Host

/-!
From the nodes to be generated to descriptors: one for each enum, in the order of the
declarations. A later declaration of a name replaces an earlier one.
-/
namespace EnumLookup.Generation

variable {ν σ : Type}

/-- The first node of each key, in the order of their first reports. -/
def distinct (host : Host ν σ) : List ν → List ν
  | [] => []
  | node :: rest => node :: (distinct host rest).filter fun other => host.key other ≠ host.key node

/-- One node for each key, in the order of the keys. -/
def deduplicate (host : Host ν σ) (targets : List ν) : List ν :=
  (distinct host targets).mergeSort fun a b => (host.key a).le (host.key b)

/-- Adds a descriptor; it takes the place of one with the same name, at the end. -/
def record (descriptors : List Descriptor) (descriptor : Descriptor) : List Descriptor :=
  descriptors.filter (·.qualifiedName ≠ descriptor.qualifiedName) ++ [descriptor]

/-- What a node adds to the descriptors. A node without an enum adds nothing. -/
def extractNode (host : Host ν σ) (descriptors : List Descriptor) (node : ν) :
    Step σ (List Descriptor) := do
  match ← Step.ask (host.declaredType node) with
  | .error error =>
    Step.report (.unresolved (host.key node).name error)
    pure descriptors
  | .ok none =>
    Step.report (.notAnEnum (host.key node).name)
    pure descriptors
  | .ok (some type) =>
    match type.descriptor with
    | .error error => Step.stop (.invalid error)
    | .ok descriptor => pure (record descriptors descriptor)

/-- Goes through the nodes in order; polls before each. -/
def extractNodes (host : Host ν σ) (cancellation : Cancellation) (descriptors : List Descriptor) :
    List ν → Step σ (List Descriptor)
  | [] => pure descriptors
  | node :: rest => do
    Step.poll cancellation
    let descriptors ← extractNode host descriptors node
    extractNodes host cancellation descriptors rest

/-- The descriptors of the targets, which may be repeated and in any order. -/
def extract (host : Host ν σ) (cancellation : Cancellation) (targets : List ν) :
    Step σ (List Descriptor) :=
  extractNodes host cancellation [] (deduplicate host targets)

end EnumLookup.Generation
