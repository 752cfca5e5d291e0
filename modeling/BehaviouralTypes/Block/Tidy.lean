import BehaviouralTypes.Block.Basic

/-!
# Tidying a block

When definitions disappear from a program, the invocations of them dangle. Tidying drops those
invocations, drops the choices in which every alternative has come down to `tau`, and writes
`tau` where a sequence has come down to nothing. The alternatives of a choice are tidied before
the choice is judged, so one pass is enough at any depth.
-/

namespace BehaviouralTypes

/-- The block itself, or `tau` in place of the empty block. -/
def Block.orTau : Block → Block
  | [] => [.tau]
  | s :: block => s :: block

mutual

/-- The tidied statement, or nothing if it is dropped. -/
def Stmt.tidy? (defined : List Name) : Stmt → Option Stmt
  | .tau => some .tau
  | .act action => some (.act action)
  | .invoke mode invocation =>
    if invocation.target ∈ defined then some (.invoke mode invocation) else none
  | .branch kind yes no =>
    let yes' := Block.orTau (Block.survivors defined yes)
    let no' := Block.orTau (Block.survivors defined no)
    if yes'.isTau && no'.isTau then none else some (.branch kind yes' no')
  | .select cases =>
    let cases' := Choices.tidy defined cases
    if cases'.all Block.isTau then none else some (.select cases')

/-- What tidying leaves of the statements of the block. -/
def Block.survivors (defined : List Name) : Block → Block
  | [] => []
  | s :: block => (s.tidy? defined).toList ++ Block.survivors defined block

/-- The tidied alternatives, as many as before. -/
def Choices.tidy (defined : List Name) : Choices → Choices
  | [] => []
  | block :: cases => Block.orTau (Block.survivors defined block) :: Choices.tidy defined cases

end

/-- The block without dangling invocations and empty choices, and never empty itself. -/
def Block.tidy (defined : List Name) (block : Block) : Block := (block.survivors defined).orTau

mutual

/-- How many statements tidying drops from the statement, itself included. -/
def Stmt.dropped (defined : List Name) : Stmt → Nat
  | .tau | .act _ => 0
  | .invoke mode invocation => if ((Stmt.invoke mode invocation).tidy? defined).isNone then 1 else 0
  | .branch kind yes no =>
    Block.dropped defined yes + Block.dropped defined no +
      if ((Stmt.branch kind yes no).tidy? defined).isNone then 1 else 0
  | .select cases =>
    Choices.dropped defined cases + if ((Stmt.select cases).tidy? defined).isNone then 1 else 0

/-- How many statements tidying drops from the block, at any depth. -/
def Block.dropped (defined : List Name) : Block → Nat
  | [] => 0
  | s :: block => s.dropped defined + Block.dropped defined block

/-- How many statements tidying drops from the alternatives. -/
def Choices.dropped (defined : List Name) : Choices → Nat
  | [] => 0
  | block :: cases => Block.dropped defined block + Choices.dropped defined cases

end

end BehaviouralTypes
