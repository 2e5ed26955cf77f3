import Mathlib.Data.List.Perm.Subperm
import Tuga.Proofs.Stages

namespace Tuga

-- The constants that the code of an expression loads, in order.
def Expr.constants : Expr → List Constant
  | .real _ value => [.ofReal value]
  | .text _ quoted => [.ofText quoted]
  | .paren _ inner => inner.constants
  | .neg _ operand => operand.constants
  | .not _ operand => operand.constants
  | .binary _ _ _ left right => left.constants ++ right.constants
  | _ => []

theorem Expr.constants_bare (e : Expr) : e.bare.constants = e.constants := by
  induction e with
  | int | real | bool | text => rfl
  | paren _ _ ih | neg _ _ ih | not _ _ ih => exact ih
  | binary info level op left right ihl ihr => simp only [bare, constants, ihl, ihr]

-- The constant that a literal stands for, if it needs one.
def Token.constant? (t : Token) : Option Constant :=
  match t.kind with
  | .real => some (.ofReal (Parser.realValue t.literal))
  | .text => some (.ofText t.literal)
  | _ => none

-- A constant as a literal gives it: of its two values only the one that counts is set.
def Constant.IsLiteral (c : Constant) : Prop :=
  c = .ofReal c.real ∨ c = .ofText c.text

theorem Constant.IsLiteral.eq_of_same {c d : Constant} (hc : c.IsLiteral) (hd : d.IsLiteral)
    (h : c.same d) : c = d := by
  rcases hd with hd | hd
  · rw [hd] at h
    obtain ⟨hkind, hvalue⟩ := same_ofReal h
    rcases hc with hc | hc
    · rw [hc, hd, hvalue]
    · rw [hc] at hkind
      cases hkind
  · rw [hd] at h
    obtain ⟨hkind, hvalue⟩ := same_ofText h
    rcases hc with hc | hc
    · rw [hc] at hkind
      cases hkind
    · rw [hc, hd, hvalue]

theorem Token.isLiteral_of_constant? {t : Token} {c : Constant} (h : t.constant? = some c) :
    c.IsLiteral := by
  rw [constant?] at h
  split at h
  · cases h
    exact .inl rfl
  · cases h
    exact .inr rfl
  · cases h

namespace Grammar

variable {l : Level} {op : Operator} {ph : Phrase} {ts : List Token} {e : Expr}

theorem Sign.constant?_eq_none {t : Token} (h : Sign l t.kind op) : t.constant? = none := by
  rw [Token.constant?]
  cases hk : t.kind with
  | real | text => rw [hk] at h; cases h
  | _ => rfl

-- The constants of what stands before a repetition.
def Phrase.constants : Phrase → List Constant
  | .more _ left => left.constants
  | _ => []

theorem constants_operands (l : Level) : (operands l).constants = [] := by
  cases l <;> rfl

-- The constants of a tree are those of the tokens it is derived from.
theorem Derives.constants_eq (h : Derives ph ts e) :
    e.constants = ph.constants ++ ts.filterMap Token.constant? := by
  induction h with
  | @level l ts us left e _ _ ih ih' =>
      rw [ih', List.filterMap_append, Phrase.constants, ih, constants_operands]
      rfl
  | done => simp [Phrase.constants]
  | @more l op t ts us left right e sign _ _ ih ih' =>
      rw [ih', List.filterMap_cons_none sign.constant?_eq_none, List.filterMap_append,
        Phrase.constants, Phrase.constants, Expr.constants, ih, constants_operands]
      simp
  | neg kind _ ih | not kind _ ih =>
      rw [List.filterMap_cons_none (by rw [Token.constant?, kind])]
      exact ih
  | primary _ ih => exact ih
  | int kind | real kind | text kind | verdadeiro kind | falso kind =>
      simp [Phrase.constants, Expr.constants, Token.constant?, kind]
  | paren opening _ closing ih =>
      rw [List.filterMap_cons_none (by rw [Token.constant?, opening]), List.filterMap_append,
        List.filterMap_cons_none (by rw [Token.constant?, closing]), List.filterMap_nil,
        List.append_nil]
      exact ih

theorem IsStatement.constants_eq (h : IsStatement ts e) :
    e.constants = ts.filterMap Token.constant? := by
  obtain ⟨escreve, value, semicolon⟩ := h
  rw [value.constants_eq, List.filterMap_cons_none (by rw [Token.constant?, escreve]),
    List.filterMap_append, List.filterMap_cons_none (by rw [Token.constant?, semicolon])]
  simp [Phrase.constants]

theorem IsProgram.constants_eq {trees : List Expr} (h : IsProgram ts trees) :
    trees.flatMap Expr.constants = ts.filterMap Token.constant? := by
  induction h with
  | one h => rw [List.flatMap_singleton, h.constants_eq]
  | cons h _ ih => rw [List.flatMap_cons, List.filterMap_append, h.constants_eq, ih]

end Grammar

-- A pool with more constants, each value once.
def pooledAll (pool constants : List Constant) : List Constant :=
  constants.foldl (fun pool c => (pooled pool c).2) pool

theorem mem_pooledAll {pool constants : List Constant} {c : Constant}
    (hc : c ∈ pooledAll pool constants) : c ∈ pool ∨ c ∈ constants := by
  induction constants generalizing pool with
  | nil => exact .inl hc
  | cons d constants ih =>
      rcases ih hc with hpool | hconstants
      · rcases mem_pooled hpool with hold | rfl
        · exact .inl hold
        · exact .inr List.mem_cons_self
      · exact .inr (List.mem_cons_of_mem d hconstants)

section Pool

variable {pool constants : List Constant} {c : Constant}

theorem nodup_pooled (hpool : pool.Nodup) (c : Constant) : (pooled pool c).2.Nodup := by
  rw [pooled]
  split
  · exact hpool
  · rename_i hnone
    rw [List.findIdx?_eq_none_iff] at hnone
    have hnew : c ∉ pool := by
      intro hc
      have hsame := hnone c hc
      rw [c.same_self] at hsame
      cases hsame
    exact (List.perm_append_singleton c pool).nodup_iff.mpr (List.nodup_cons.mpr ⟨hnew, hpool⟩)

theorem nodup_pooledAll (hpool : pool.Nodup) (constants : List Constant) :
    (pooledAll pool constants).Nodup := by
  induction constants generalizing pool with
  | nil => exact hpool
  | cons c constants ih => exact ih (nodup_pooled hpool c)

theorem prefix_pooledAll (pool constants : List Constant) :
    pool <+: pooledAll pool constants := by
  induction constants generalizing pool with
  | nil => exact List.prefix_refl pool
  | cons c constants ih => exact (prefix_pooled pool c).trans (ih _)

theorem mem_pooled_self (hpool : ∀ d ∈ pool, d.IsLiteral) (hc : c.IsLiteral) :
    c ∈ (pooled pool c).2 := by
  obtain ⟨d, hd, hsame⟩ := getElem?_pooled pool c
  have hmem := List.mem_of_getElem? hd
  have hliteral : d.IsLiteral := by
    rcases mem_pooled hmem with hold | rfl
    · exact hpool d hold
    · exact hc
  rwa [hliteral.eq_of_same hc hsame] at hmem

theorem mem_pooledAll_of_mem (hpool : ∀ d ∈ pool, d.IsLiteral)
    (hconstants : ∀ d ∈ constants, d.IsLiteral) (hc : c ∈ constants) :
    c ∈ pooledAll pool constants := by
  induction constants generalizing pool with
  | nil => cases hc
  | cons d constants ih =>
      rw [List.forall_mem_cons] at hconstants
      have hpooled : ∀ e ∈ (pooled pool d).2, e.IsLiteral := by
        intro e he
        rcases mem_pooled he with hold | rfl
        · exact hpool e hold
        · exact hconstants.1
      rcases List.mem_cons.mp hc with rfl | hc
      · exact (prefix_pooledAll _ constants).subset (mem_pooled_self hpool hconstants.1)
      · exact ih hpooled hconstants.2 hc

-- Literals need no more room in the pool than they need with others before them.
theorem length_pooledAll_le {first second : List Constant}
    (h : ∀ c ∈ first ++ second, c.IsLiteral) :
    (pooledAll [] second).length ≤ (pooledAll [] (first ++ second)).length := by
  have hsubset : pooledAll [] second ⊆ pooledAll [] (first ++ second) := by
    intro c hc
    have hsecond : c ∈ second := (mem_pooledAll hc).resolve_left List.not_mem_nil
    exact mem_pooledAll_of_mem (by simp) h (List.mem_append_right first hsecond)
  exact (List.subperm_of_subset (nodup_pooledAll List.nodup_nil second) hsubset).length_le

end Pool

namespace Codegen

-- Generation that adds the given constants to the pool, in order.
def Pools {α : Type} (constants : List Constant) (x : Gen α) : Prop :=
  ∀ pool a pool', x pool = .ok (a, pool') → pool' = pooledAll pool constants

namespace Pools

variable {α β : Type} {constants more : List Constant} {x : Gen α}

theorem pure (a : α) : Pools [] (Pure.pure a : Gen α) := by
  intro pool b pool' h
  exact (stateT_pure_eq_ok.mp h).2.symm

theorem bind {f : α → Gen β} (hx : Pools constants x) (hf : ∀ a, Pools more (f a)) :
    Pools (constants ++ more) (x >>= f) := by
  intro pool b pool' h
  obtain ⟨a, mid, ha, hb⟩ := stateT_bind_eq_ok.mp h
  rw [hf a mid b pool' hb, hx pool a mid ha, pooledAll, pooledAll, pooledAll, List.foldl_append]

theorem map {f : α → β} (hx : Pools constants x) :
    Pools constants (x >>= fun a => Pure.pure (f a)) := by
  have h := hx.bind fun a => Pools.pure (f a)
  rwa [List.append_nil] at h

theorem load (o : Operation) (c : Constant) : Pools [c] (Codegen.load o c) := by
  intro pool code pool' h
  exact (load_eq_ok h).2

theorem operation {types : TypeMap} {left right : Expr} {l r : ValueType}
    {leftCode rightCode : Gen (List Instruction)} (hl : types.of left.id = .typed l)
    (hr : types.of right.id = .typed r) (hleft : Pools constants leftCode)
    (hright : Pools more rightCode) (convert : NodeType → List Instruction) (o : Operation) :
    Pools (constants ++ more)
      (Codegen.operation types convert left right leftCode rightCode o) := by
  simp only [Codegen.operation, operand, typeOf_eq hl, typeOf_eq hr, pure_bind]
  exact (hleft.map).bind fun ls => (hright.map).map

end Pools

theorem pools_expression {types : TypeMap} {e : Expr} (he : e.Annotated types) :
    Pools e.constants (expression types e) := by
  induction e with
  | int info value =>
      rw [expression]
      split
      · exact .pure _
      · intro pool code pool' h
        cases h
  | real info value => exact .load _ _
  | text info quoted => exact .load _ _
  | bool info value => exact .pure _
  | paren info inner ih =>
      rw [expression]
      exact ih (he.part (by simp [Expr.children]))
  | neg info operand ih =>
      obtain ⟨t, -, ht⟩ := he.exists_type
      rw [expression, typeOf_eq ht, pure_bind]
      exact (ih (he.part (by simp [Expr.children]))).map
  | not info operand ih =>
      rw [expression]
      exact (ih (he.part (by simp [Expr.children]))).map
  | binary info level op left right ihl ihr =>
      have hleft := he.part (show left ∈ _ by simp [Expr.children])
      have hright := he.part (show right ∈ _ by simp [Expr.children])
      obtain ⟨l, hl, hlid⟩ := hleft.exists_type
      obtain ⟨r, hr, hrid⟩ := hright.exists_type
      obtain ⟨t, ht, htid⟩ := he.exists_type
      change types.of info.id = .typed t at htid
      have hrule : level.type? op l r = some t := by simpa [Expr.type?, hl, hr] using ht
      obtain ⟨convert, o, heq, -⟩ := lowersNode_binary he.leveled hrule hlid hrid htid
      rw [heq, Expr.constants]
      exact .operation hlid hrid (ihl hleft) (ihr hright) convert o

theorem pools_statements {types : TypeMap} {stmts : List Statement}
    (h : ∀ s ∈ stmts, s.value.Annotated types) :
    Pools (stmts.flatMap fun s => s.value.constants) (statements types stmts) := by
  induction stmts with
  | nil => exact .pure _
  | cons s stmts ih =>
      rw [List.forall_mem_cons] at h
      obtain ⟨t, -, ht⟩ := h.1.exists_type
      rw [List.flatMap_cons, statements, statement]
      simp only [typeOf_eq ht, pure_bind]
      exact ((pools_expression h.1).map).bind fun is => (ih h.2).map

end Codegen

-- The constants of an accepted source are those of its literals, in order, each value once.
theorem constants_of_rejection_eq_none {source : Text} {b : Bytecode}
    (h : (compile source).rejection = none) (hb : (compile source).bytecode = some b) :
    b.constants = pooledAll [] ((sourceTokens source).filterMap Token.constant?) := by
  obtain ⟨b', hb', herrors, hgenerate⟩ := generate_of_rejection_eq_none h
  obtain rfl := Option.some.inj (hb.symm.trans hb')
  obtain ⟨code, hcode, -⟩ := Program.generate_eq_ok hgenerate
  have hannotated := (Parser.built_parse source).annotated herrors
  have hrejected := (compile_outcome source).rejectedBy
  rw [h] at hrejected
  obtain ⟨-, ⟨⟨trees, hprogram⟩, hrange⟩, -, -⟩ := hrejected
  obtain ⟨-, rfl⟩ := (Parser.isProgram_tokens_iff source trees).mp ⟨hprogram, hrange⟩
  have hliterals := hprogram.constants_eq
  simp only [List.flatMap_map, Expr.constants_bare] at hliterals
  rw [← hliterals]
  exact Codegen.pools_statements hannotated _ _ _ hcode

end Tuga
