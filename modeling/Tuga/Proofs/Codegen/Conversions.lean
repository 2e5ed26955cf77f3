import Mathlib.Data.List.Forall2
import Tuga.Proofs.Codegen.Refinement

namespace Tuga

-- The operations that convert an operand for the operation of its node.
def Operation.conversions : List Operation := [.itod, .itos, .dtos, .btos]

-- The levels of arithmetic and of comparisons.
def Level.takesNumbers : Level → Bool
  | .conjunction | .disjunction => false
  | _ => true

namespace Expr

def isLiteral : Expr → Bool
  | int .. | real .. | bool .. | text .. => true
  | _ => false

def isUnary : Expr → Bool
  | neg .. | not .. => true
  | _ => false

def isBinary : Expr → Bool
  | binary .. => true
  | _ => false

-- The common type of the two operands of arithmetic or of a comparison, if they are numbers.
def commonType? : Expr → Option ValueType
  | binary _ level _ left right =>
    if level.takesNumbers then
      left.type?.bind fun l => right.type?.bind fun r => l.arithmetic? r
    else none
  | _ => none

-- Whether a node joins texts.
def isConcatenation : Expr → Bool
  | binary _ .additive .plus left right => left.type? = some .text || right.type? = some .text
  | _ => false

-- Whether an operation has to convert the operands of a node that have a type.
def converts (e : Expr) : Operation → ValueType → Bool
  | .itod, .integer => e.commonType? = some .real
  | .itos, .integer => e.isConcatenation
  | .dtos, .real => e.isConcatenation
  | .btos, .boolean => e.isConcatenation
  | _, _ => false

theorem converts_eq_false {e : Expr} (hcommon : e.commonType? ≠ some .real)
    (hconcat : e.isConcatenation = false) (o : Operation) (t : ValueType) :
    e.converts o t = false := by
  unfold converts
  split <;> simp [hcommon, hconcat]

-- The operands of a node that an operation has to convert.
def converted (e : Expr) (o : Operation) : List Expr :=
  e.children.filter fun operand => operand.type?.any (e.converts o)

end Expr

def Program.converted (p : Program) (o : Operation) : List Expr :=
  p.expressions.flatMap (·.converted o)

namespace Codegen

-- An operation that computes a value and converts none.
def isOrdinary (o : Operation) : Bool :=
  !o.isPrint && o ≠ .halt && o ∉ Operation.conversions

-- What code has: instructions for some nodes, and a conversion for each of the operands that need
-- it. Nothing in it prints or halts.
structure Accounts (nodes : Nat) (converted : Operation → List Expr) (code : List Instruction) :
    Prop where
  quiet : ∀ i ∈ code, i.op.isPrint = false ∧ i.op ≠ Operation.halt.code
  conversions : ∀ o ∈ Operation.conversions, code.countP (·.op = o.code) = (converted o).length
  length : code.length = nodes + (Operation.conversions.map fun o => (converted o).length).sum

def ownInstructions (nodes : List Expr) : Nat :=
  nodes.countP Expr.isLiteral + nodes.countP Expr.isUnary + nodes.countP Expr.isBinary

def AccountsFor (nodes : List Expr) (code : List Instruction) : Prop :=
  Accounts (ownInstructions nodes) (fun o => nodes.flatMap (·.converted o)) code

theorem code_inj {o o' : Operation} : o.code = o'.code ↔ o = o' := by
  refine ⟨fun h => ?_, congrArg Operation.code⟩
  have hop := congrArg Opcode.operation? h
  rw [Opcode.operation?_code, Opcode.operation?_code] at hop
  exact Option.some.inj hop

theorem isPrint_code (o : Operation) : o.code.isPrint = o.isPrint := by
  rw [Opcode.isPrint, Opcode.operation?_code]
  rfl

namespace Accounts

variable {n n' : Nat} {converted more : Operation → List Expr} {code next : List Instruction}

theorem nil : Accounts 0 (fun _ => []) [] := ⟨by simp, by simp, rfl⟩

theorem append (h : Accounts n converted code) (h' : Accounts n' more next) :
    Accounts (n + n') (fun o => converted o ++ more o) (code ++ next) where
  quiet := List.forall_mem_append.mpr ⟨h.quiet, h'.quiet⟩
  conversions := by
    intro o ho
    rw [List.countP_append, List.length_append, h.conversions o ho, h'.conversions o ho]
  length := by
    have hcode := h.length
    have hnext := h'.length
    simp only [Operation.conversions, List.map_cons, List.map_nil, List.sum_cons, List.sum_nil,
      List.length_append] at hcode hnext ⊢
    omega

theorem of_perm (h : Accounts n converted code) (hperm : code.Perm next) :
    Accounts n converted next where
  quiet := fun i hi => h.quiet i (hperm.mem_iff.mpr hi)
  conversions := fun o ho => (hperm.countP_eq _).symm.trans (h.conversions o ho)
  length := hperm.length_eq.symm.trans h.length

theorem instruction {o : Operation} (ho : isOrdinary o = true) (arg : Int32) :
    Accounts 1 (fun _ => []) [⟨o.code, arg⟩] := by
  simp only [isOrdinary, Bool.and_eq_true, Bool.not_eq_true', decide_eq_true_eq] at ho
  refine ⟨?_, fun c hc => ?_, rfl⟩
  · simpa [isPrint_code, code_inj] using ho.1
  · have hne : o ≠ c := by
      rintro rfl
      exact ho.2 hc
    simp [code_inj, hne]

theorem conversion {c : Operation} (hc : c ∈ Operation.conversions) (operand : Expr) :
    Accounts 0 (fun o => if o = c then [operand] else []) [.of c] where
  quiet := by
    simp only [Operation.conversions, List.mem_cons, List.not_mem_nil, or_false] at hc
    rcases hc with rfl | rfl | rfl | rfl <;> decide
  conversions := by
    intro o _
    by_cases h : o = c
    · subst h
      simp [Instruction.of]
    · simp [Instruction.of, code_inj, h, Ne.symm h]
  length := by
    simp only [Operation.conversions, List.mem_cons, List.not_mem_nil, or_false] at hc
    rcases hc with rfl | rfl | rfl | rfl <;> rfl

end Accounts

-- A way to convert operands is the one that a node needs.
def Converts (e : Expr) (convert : NodeType → List Instruction) : Prop :=
  ∀ t, (convert (.typed t) = [] ∧ ∀ o, e.converts o t = false) ∨
    ∃ c ∈ Operation.conversions, convert (.typed t) = [.of c] ∧
      ∀ o, e.converts o t = decide (o = c)

section Converts

variable {e : Expr}

theorem converts_toText (hconcat : e.isConcatenation = true)
    (hcommon : e.commonType? ≠ some .real) : Converts e toText := by
  intro t
  cases t with
  | integer =>
      refine .inr ⟨.itos, by decide, rfl, fun o => ?_⟩
      cases o <;> simp [Expr.converts, hconcat, hcommon]
  | real =>
      refine .inr ⟨.dtos, by decide, rfl, fun o => ?_⟩
      cases o <;> simp [Expr.converts, hconcat]
  | boolean =>
      refine .inr ⟨.btos, by decide, rfl, fun o => ?_⟩
      cases o <;> simp [Expr.converts, hconcat]
  | text => exact .inl ⟨rfl, fun o => by cases o <;> rfl⟩

theorem converts_widening {target : NodeType} (hconcat : e.isConcatenation = false)
    (hcommon : target = .typed .real ↔ e.commonType? = some .real) :
    Converts e (widening · target) := by
  intro t
  by_cases htarget : target = .typed .real
  · have hreal := hcommon.mp htarget
    subst htarget
    cases t with
    | integer =>
        refine .inr ⟨.itod, by decide, rfl, fun o => ?_⟩
        cases o <;> simp [Expr.converts, hconcat, hreal]
    | real | boolean | text =>
        refine .inl ⟨rfl, fun o => ?_⟩
        cases o <;> simp [Expr.converts, hconcat]
  · exact .inl ⟨widening_eq_nil htarget,
      fun o => Expr.converts_eq_false (mt hcommon.mpr htarget) hconcat o t⟩

theorem Converts.operand {convert : NodeType → List Instruction} (h : Converts e convert)
    {operand : Expr} {t : ValueType} (ht : operand.type? = some t) :
    Accounts 0 (fun o => [operand].filter fun n => n.type?.any (e.converts o))
      (convert (.typed t)) := by
  rcases h t with ⟨hnil, hnone⟩ | ⟨c, hc, hsingle, hone⟩
  · simpa [hnil, ht, hnone] using Accounts.nil
  · simpa [hsingle, ht, hone, List.filter_cons] using Accounts.conversion hc operand

end Converts

theorem isOrdinary_of_arithmetic? {op : Operator} {real : Bool} {o : Operation}
    (h : arithmetic? op real = some o) : isOrdinary o = true := by
  cases real <;> cases op <;> cases h <;> rfl

-- What is compared has no other conversion than that of numbers to reals.
theorem isOrdinary_of_compare? {op : Operator} {l r : ValueType} {common : NodeType}
    {o : Operation} (h : compare? op (.typed l) (.typed r) = some (common, o)) :
    isOrdinary o = true ∧ (common = .typed .real ↔ l.arithmetic? r = some .real) := by
  have hcomparison : ∀ real, isOrdinary (comparison op real) = true := by
    intro real
    cases real <;> cases op <;> rfl
  have hequality : ∀ equal notEqual, isOrdinary equal = true → isOrdinary notEqual = true →
      equality? op equal notEqual = some o → isOrdinary o = true := by
    intro equal notEqual hequal hnotEqual ho
    cases op <;> cases ho <;> assumption
  unfold compare? at h
  split at h
  · rename_i hl hr
    cases hl
    cases hr
    obtain ⟨o', ho', hpair⟩ := Option.map_eq_some_iff.mp h
    cases hpair
    exact ⟨hequality _ _ rfl rfl ho', by decide⟩
  · rename_i hl hr
    cases hl
    cases hr
    obtain ⟨o', ho', hpair⟩ := Option.map_eq_some_iff.mp h
    cases hpair
    exact ⟨hequality _ _ rfl rfl ho', by decide⟩
  · rename_i hl hr
    cases hl
    cases hr
    split at h
    · rename_i hnumeric
      cases h
      exact ⟨hcomparison _, by simp [ValueType.arithmetic?, hnumeric]⟩
    · cases h
  · cases h

-- All nodes of an expression have a type, which the table knows.
def Typed (types : TypeMap) (e : Expr) : Prop :=
  ∀ n ∈ e.nodes, ∃ t, n.type? = some t ∧ types.of n.id = .typed t

theorem Typed.part {types : TypeMap} {e part : Expr} (h : Typed types e)
    (hpart : part ∈ e.children) : Typed types part := by
  intro n hn
  refine h n ?_
  rw [Expr.nodes_eq]
  exact List.mem_cons_of_mem _ (List.mem_flatMap.mpr ⟨part, hpart, hn⟩)

section Binary

variable {types : TypeMap} {info : NodeInfo} {level : Level} {op : Operator} {left right : Expr}
  {l r t : ValueType} {pool pool' : List Constant} {code : List Instruction}

-- Some code of a binary node is that of its operands with the conversions that the node needs, and
-- one operation.
def Operates (types : TypeMap) (info : NodeInfo) (level : Level) (op : Operator)
    (left right : Expr) (pool : List Constant) (code : List Instruction)
    (pool' : List Constant) : Prop :=
  ∃ convert o, Converts (.binary info level op left right) convert ∧ isOrdinary o = true ∧
    operation types convert left right (expression types left) (expression types right) o pool =
      .ok (code, pool')

theorem operates_additive (hl : left.type? = some l) (hr : right.type? = some r)
    (ht : Level.additive.type? op l r = some t) (hid : types.of info.id = .typed t)
    (h : expression types (.binary info .additive op left right) pool = .ok (code, pool')) :
    Operates types info .additive op left right pool code pool' := by
  have htype : typeOf types (.binary info .additive op left right) = pure (.typed t) :=
    typeOf_eq hid
  rw [expression, htype, pure_bind] at h
  by_cases htext : op = .plus ∧ (l = .text ∨ r = .text)
  · obtain ⟨rfl, htext⟩ := htext
    obtain rfl : ValueType.text = t := by simpa [Level.type?, htext] using ht
    rw [if_pos rfl] at h
    refine ⟨_, _, converts_toText ?_ ?_, rfl, h⟩
    · simpa [Expr.isConcatenation, hl, hr] using htext
    · rcases htext with rfl | rfl <;>
        simp [Expr.commonType?, hl, hr, ValueType.arithmetic?, ValueType.isNumeric]
  · have harith : l.arithmetic? r = some t := by simpa [Level.type?, htext] using ht
    rw [if_neg (arithmetic?_ne_text harith)] at h
    cases ho : arithmetic? op (NodeType.typed t = .typed .real) with
    | none =>
        simp only [ho] at h
        cases h
    | some o =>
        simp only [ho] at h
        refine ⟨_, o, converts_widening ?_ ?_, isOrdinary_of_arithmetic? ho, h⟩
        · rw [Bool.eq_false_iff]
          intro hconcat
          cases op with
          | plus => exact htext ⟨rfl, by simpa [Expr.isConcatenation, hl, hr] using hconcat⟩
          | _ => cases hconcat
        · simp [Expr.commonType?, Level.takesNumbers, hl, hr, harith]

theorem operates_multiplicative (hl : left.type? = some l) (hr : right.type? = some r)
    (ht : Level.multiplicative.type? op l r = some t) (hid : types.of info.id = .typed t)
    (h : expression types (.binary info .multiplicative op left right) pool = .ok (code, pool')) :
    Operates types info .multiplicative op left right pool code pool' := by
  have htype : typeOf types (.binary info .multiplicative op left right) = pure (.typed t) :=
    typeOf_eq hid
  rw [expression, htype, pure_bind] at h
  by_cases hmod : op = .mod
  · subst hmod
    obtain ⟨⟨rfl, rfl⟩, rfl⟩ : (l = .integer ∧ r = .integer) ∧ ValueType.integer = t := by
      simpa [Level.type?] using ht
    rw [if_pos rfl] at h
    refine ⟨_, _, converts_widening rfl ?_, rfl, h⟩
    simp [Expr.commonType?, Level.takesNumbers, hl, hr, ValueType.arithmetic?,
      ValueType.isNumeric, ValueType.widen]
  · have harith : l.arithmetic? r = some t := by simpa [Level.type?, hmod] using ht
    rw [if_neg hmod] at h
    cases ho : arithmetic? op (NodeType.typed t = .typed .real) with
    | none =>
        simp only [ho] at h
        cases h
    | some o =>
        simp only [ho] at h
        refine ⟨_, o, converts_widening rfl ?_, isOrdinary_of_arithmetic? ho, h⟩
        simp [Expr.commonType?, Level.takesNumbers, hl, hr, harith]

theorem operates_comparison (hlevel : level = .relational ∨ level = .equality)
    (hl : left.type? = some l) (hr : right.type? = some r) (hlid : types.of left.id = .typed l)
    (hrid : types.of right.id = .typed r)
    (h : expression types (.binary info level op left right) pool = .ok (code, pool')) :
    Operates types info level op left right pool code pool' := by
  rcases hlevel with rfl | rfl
  all_goals
    rw [expression, typeOf_eq hlid, typeOf_eq hrid, pure_bind, pure_bind] at h
    cases ho : compare? op (.typed l) (.typed r) with
    | none =>
        rw [ho] at h
        cases h
    | some pair =>
        obtain ⟨common, o⟩ := pair
        rw [ho] at h
        obtain ⟨hordinary, hcommon⟩ := isOrdinary_of_compare? ho
        refine ⟨_, o, converts_widening rfl ?_, hordinary, h⟩
        simpa [Expr.commonType?, Level.takesNumbers, hl, hr] using hcommon

-- The code of a binary node, by its level.
theorem operates_of_ok (hl : left.type? = some l) (hr : right.type? = some r)
    (ht : level.type? op l r = some t) (hlid : types.of left.id = .typed l)
    (hrid : types.of right.id = .typed r) (hid : types.of info.id = .typed t)
    (h : expression types (.binary info level op left right) pool = .ok (code, pool')) :
    Operates types info level op left right pool code pool' := by
  cases level with
  | additive => exact operates_additive hl hr ht hid h
  | multiplicative => exact operates_multiplicative hl hr ht hid h
  | relational => exact operates_comparison (.inl rfl) hl hr hlid hrid h
  | equality => exact operates_comparison (.inr rfl) hl hr hlid hrid h
  | conjunction | disjunction =>
      rw [expression] at h
      exact ⟨_, _, converts_widening rfl (by simp [Expr.commonType?, Level.takesNumbers]), rfl, h⟩

end Binary

namespace AccountsFor

variable {nodes more : List Expr} {code next own : List Instruction} {e : Expr}

theorem append (h : AccountsFor nodes code) (h' : AccountsFor more next) :
    AccountsFor (nodes ++ more) (code ++ next) := by
  have hown : ownInstructions (nodes ++ more) = ownInstructions nodes + ownInstructions more := by
    simp only [ownInstructions, List.countP_append]
    omega
  simp only [AccountsFor, hown, List.flatMap_append]
  exact Accounts.append h h'

theorem node (hown : AccountsFor [e] own) (hparts : AccountsFor nodes code)
    (hperm : (own ++ code).Perm next) : AccountsFor (e :: nodes) next :=
  (hown.append hparts).of_perm hperm

theorem unconverted (hcommon : e.commonType? ≠ some .real) (hconcat : e.isConcatenation = false)
    (hown : Accounts (ownInstructions [e]) (fun _ => []) own) : AccountsFor [e] own := by
  have hconverted : ∀ o, [e].flatMap (·.converted o) = [] := by
    intro o
    rw [List.flatMap_singleton, Expr.converted, List.filter_eq_nil_iff]
    intro operand _
    cases operand.type? <;> simp [Expr.converts_eq_false hcommon hconcat]
  simp only [AccountsFor, hconverted]
  exact hown

-- The code of a binary node itself: the conversions of its operands and the operation.
theorem binary {info : NodeInfo} {level : Level} {op : Operator} {left right : Expr}
    {l r : ValueType} {convert : NodeType → List Instruction} {o : Operation}
    (hl : left.type? = some l) (hr : right.type? = some r)
    (hconvert : Converts (.binary info level op left right) convert) (ho : isOrdinary o = true) :
    AccountsFor [.binary info level op left right]
      (convert (.typed l) ++ convert (.typed r) ++ [.of o]) := by
  have hown := ((hconvert.operand hl).append (hconvert.operand hr)).append (.instruction ho 0)
  simp only [← List.filter_append, List.append_nil, List.cons_append, List.nil_append] at hown
  simp only [AccountsFor, List.flatMap_singleton]
  exact hown

end AccountsFor

-- Induction on the expression, for every pool.
theorem accountsFor_expression {types : TypeMap} {e : Expr} (he : Typed types e)
    {pool pool' : List Constant} {code : List Instruction}
    (h : expression types e pool = .ok (code, pool')) : AccountsFor e.nodes code := by
  induction e generalizing pool pool' code with
  | int info value =>
      rw [expression] at h
      split at h
      · cases h
        exact .instruction rfl _
      · cases h
  | real info value =>
      rw [(load_eq_ok h).1]
      exact .instruction rfl _
  | text info quoted =>
      rw [(load_eq_ok h).1]
      exact .instruction rfl _
  | bool info value =>
      cases h
      cases value <;> exact .instruction rfl _
  | paren info inner ih =>
      have hown : AccountsFor [.paren info inner] [] :=
        .unconverted (by simp [Expr.commonType?]) rfl .nil
      exact hown.node (ih (he.part (by simp [Expr.children])) h) (.refl _)
  | neg info operand ih =>
      obtain ⟨t, -, htypes⟩ := he _ (Expr.self_mem_nodes _)
      rw [expression, typeOf_eq htypes, pure_bind, stateT_bind_eq_ok] at h
      obtain ⟨is, mid, his, h⟩ := h
      obtain ⟨rfl, rfl⟩ := stateT_pure_eq_ok.mp h
      refine AccountsFor.node (.unconverted (by simp [Expr.commonType?]) rfl (.instruction ?_ 0))
        (ih (he.part (by simp [Expr.children])) his) List.perm_append_comm
      split <;> rfl
  | not info operand ih =>
      rw [expression, stateT_bind_eq_ok] at h
      obtain ⟨is, mid, his, h⟩ := h
      obtain ⟨rfl, rfl⟩ := stateT_pure_eq_ok.mp h
      exact AccountsFor.node (.unconverted (by simp [Expr.commonType?]) rfl (.instruction rfl 0))
        (ih (he.part (by simp [Expr.children])) his) List.perm_append_comm
  | binary info level op left right ihl ihr =>
      have hleft : Typed types left := he.part (by simp [Expr.children])
      have hright : Typed types right := he.part (by simp [Expr.children])
      obtain ⟨l, hl, hlid⟩ := hleft left (Expr.self_mem_nodes left)
      obtain ⟨r, hr, hrid⟩ := hright right (Expr.self_mem_nodes right)
      obtain ⟨t, ht, hid⟩ := he _ (Expr.self_mem_nodes _)
      have hrule : level.type? op l r = some t := by simpa [Expr.type?, hl, hr] using ht
      obtain ⟨convert, o, hconvert, ho, h⟩ := operates_of_ok hl hr hrule hlid hrid hid h
      obtain ⟨ls, rs, mid, hls, hrs, rfl⟩ := operation_eq_ok hlid hrid h
      refine (AccountsFor.binary hl hr hconvert ho).node
        ((ihl hleft hls).append (ihr hright hrs)) ?_
      rw [List.perm_iff_count]
      intro i
      simp only [List.count_append]
      omega

-- Code that ends with the one instruction in it that prints.
def EndsInPrint (part : List Instruction) : Prop :=
  ∃ value print, part = value ++ [print] ∧ print.op.isPrint = true ∧
    ∀ i ∈ value, i.op.isPrint = false

-- The code of a statement is that of its value and one instruction more, which prints.
def PrintsValue (s : Statement) (part : List Instruction) : Prop :=
  ∃ value o, part = value ++ [.of o] ∧ AccountsFor s.value.nodes value ∧ o.isPrint = true

theorem exists_parts {types : TypeMap} {stmts : List Statement}
    (hs : ∀ s ∈ stmts, Typed types s.value) {pool pool' : List Constant}
    {code : List Instruction} (h : statements types stmts pool = .ok (code, pool')) :
    ∃ parts : List (List Instruction), code = parts.flatten ∧
      List.Forall₂ PrintsValue stmts parts := by
  induction stmts generalizing pool code with
  | nil =>
      obtain ⟨rfl, -⟩ := stateT_pure_eq_ok.mp h
      exact ⟨[], rfl, .nil⟩
  | cons s stmts ih =>
      rw [List.forall_mem_cons] at hs
      obtain ⟨part, mid, more, hpart, hmore, rfl⟩ := statements_cons_eq_ok.mp h
      obtain ⟨parts, rfl, hparts⟩ := ih hs.2 hmore
      obtain ⟨t, -, htypes⟩ := hs.1 _ (Expr.self_mem_nodes _)
      obtain ⟨o, hprinting, hprint, -⟩ := exists_printing t
      simp only [statement, typeOf_eq htypes, pure_bind, stateT_bind_eq_ok, stateT_pure_eq_ok,
        hprinting] at hpart
      obtain ⟨value, last, hvalue, rfl, rfl⟩ := hpart
      refine ⟨(value ++ [.of o]) :: parts, rfl, .cons ?_ hparts⟩
      exact ⟨value, o, rfl, accountsFor_expression hs.1 hvalue, hprint⟩

theorem PrintsValue.endsInPrint {s : Statement} {part : List Instruction}
    (h : PrintsValue s part) : EndsInPrint part ∧ ∀ i ∈ part, i.op ≠ Operation.halt.code := by
  obtain ⟨value, o, rfl, hvalue, ho⟩ := h
  refine ⟨⟨value, .of o, rfl, ?_, fun i hi => (hvalue.quiet i hi).1⟩, ?_⟩
  · rwa [Instruction.of, isPrint_code]
  · refine List.forall_mem_append.mpr ⟨fun i hi => (hvalue.quiet i hi).2, ?_⟩
    rw [List.forall_mem_singleton, Instruction.of, ne_eq, code_inj]
    rintro rfl
    cases ho

-- The instructions that print are apart from the code of the values.
theorem exists_values {stmts : List Statement} {parts : List (List Instruction)}
    (h : List.Forall₂ PrintsValue stmts parts) :
    ∃ values prints, parts.flatten.Perm (values ++ prints) ∧
      AccountsFor (stmts.flatMap fun s => s.value.nodes) values ∧
      prints.length = stmts.length ∧ ∀ i ∈ prints, i.op.isPrint = true := by
  induction h with
  | nil => exact ⟨[], [], .nil, .nil, rfl, by simp⟩
  | @cons s part stmts parts hpart _ ih =>
      obtain ⟨value, o, rfl, hvalue, ho⟩ := hpart
      obtain ⟨values, prints, hperm, hvalues, hlength, hprints⟩ := ih
      refine ⟨value ++ values, .of o :: prints, ?_, hvalue.append hvalues, by simp [hlength],
        List.forall_mem_cons.mpr ⟨(isPrint_code o).trans ho, hprints⟩⟩
      rw [List.flatten_cons]
      refine (hperm.append_left _).trans ?_
      rw [List.perm_iff_count]
      intro i
      simp only [List.count_append, List.count_cons, List.count_nil]
      omega

end Codegen

namespace Program

open Codegen

-- The code of a program that checks without errors: a part for each statement, with the only
-- instruction that prints at its end, and one instruction that halts at the end of all. There are
-- as many conversions of each kind as operands need them, and one instruction for each literal,
-- each unary and each binary node.
theorem generate_converts_operands {p : Program} {b : Bytecode} (hp : p.Numbered)
    (hc : p.check.errors = []) (hb : p.generate p.check.types = .ok b) :
    (∃ parts : List (List Instruction), b.code = parts.flatten ++ [.of .halt] ∧
      List.Forall₂ (fun _ part => EndsInPrint part ∧ ∀ i ∈ part, i.op ≠ Operation.halt.code)
        p.statements parts) ∧
    b.code.countP (·.op.isPrint) = p.statements.length ∧
    (∀ o ∈ Operation.conversions, b.code.countP (·.op = o.code) = (p.converted o).length) ∧
    b.code.length = p.expressions.countP Expr.isLiteral + p.expressions.countP Expr.isUnary +
      p.expressions.countP Expr.isBinary + (p.converted .itod).length +
      (p.converted .itos).length + (p.converted .dtos).length + (p.converted .btos).length +
      p.statements.length + 1 := by
  obtain ⟨code, hcode, hhalt⟩ := generate_eq_ok hb
  have htyped : ∀ s ∈ p.statements, Typed p.check.types s.value := by
    intro s hs n hn
    exact hp.exists_type hc (List.mem_flatMap.mpr ⟨s, hs, hn⟩)
  obtain ⟨parts, rfl, hparts⟩ := exists_parts htyped hcode
  obtain ⟨values, prints, hperm, haccounts, hprints, hprinting⟩ := exists_values hparts
  rw [hhalt]
  refine ⟨⟨parts, rfl, hparts.imp fun s part hpart => hpart.endsInPrint⟩, ?_, fun o ho => ?_, ?_⟩
  · have hvalues : values.countP (·.op.isPrint) = 0 := by
      rw [List.countP_eq_zero]
      intro i hi
      simp [(haccounts.quiet i hi).1]
    rw [List.countP_append, hperm.countP_eq, List.countP_append, hvalues,
      List.countP_eq_length.mpr hprinting, hprints]
    simp [Instruction.of, isPrint_code, Operation.isPrint]
  · obtain ⟨hsilent, hne⟩ : o.isPrint = false ∧ Operation.halt ≠ o := by
      revert o
      decide
    have hnone : prints.countP (·.op = o.code) = 0 := by
      rw [List.countP_eq_zero]
      intro i hi hop
      rw [decide_eq_true_eq] at hop
      have hi := hprinting i hi
      rw [hop, isPrint_code, hsilent] at hi
      cases hi
    rw [List.countP_append, hperm.countP_eq, List.countP_append, haccounts.conversions o ho, hnone]
    simp [Instruction.of, code_inj, hne, converted, expressions]
  · have hlength := haccounts.length
    simp only [Operation.conversions, List.map_cons, List.map_nil, List.sum_cons, List.sum_nil,
      ownInstructions] at hlength
    rw [List.length_append, hperm.length_eq, List.length_append, hlength, hprints,
      List.length_singleton]
    simp only [converted, expressions]
    omega

-- Integers beside a real are widened in arithmetic and in comparisons, and nothing is widened where
-- texts are joined.
theorem generate_converts_operands_mixed :
    ∃ (p : Program) (b : Bytecode), p.Numbered ∧ p.check.errors = [] ∧
      p.generate p.check.types = .ok b ∧
      b.code.countP (·.op = Operation.itod.code) = 3 ∧
      b.code.countP (·.op = Operation.itos.code) = 1 ∧
      b.code.countP (·.op = Operation.dtos.code) = 1 ∧
      b.code.countP (·.op = Operation.btos.code) = 1 ∧
      b.code.countP (·.op.isPrint) = 2 ∧ b.code.length = 24 := by
  have hnumbered := (Parser.built_parse
    "escreve 1 + 2.5 < 3; escreve \"a\" + (1 < -2.5) + 1 + 2.5;").leveled_numbered.2
  generalize hp : (Program.parse
    "escreve 1 + 2.5 < 3; escreve \"a\" + (1 < -2.5) + 1 + 2.5;").1 = p at hnumbered
  obtain ⟨hcheck, hgenerate, hconverted, hliterals, hunary, hbinary, hstatements⟩ :
      p.check.errors = [] ∧ (p.generate p.check.types).isOk = true ∧
      Operation.conversions.map (fun o => (p.converted o).length) = [3, 1, 1, 1] ∧
      p.expressions.countP Expr.isLiteral = 8 ∧ p.expressions.countP Expr.isUnary = 1 ∧
      p.expressions.countP Expr.isBinary = 6 ∧ p.statements.length = 2 := by
    subst hp
    decide +kernel
  cases hb : p.generate p.check.types with
  | error error =>
      rw [hb] at hgenerate
      cases hgenerate
  | ok b =>
      obtain ⟨-, hprints, hconversions, hlength⟩ := generate_converts_operands hnumbered hcheck hb
      simp only [Operation.conversions, List.map_cons, List.map_nil, List.cons.injEq] at hconverted
      obtain ⟨hitod, hitos, hdtos, hbtos, -⟩ := hconverted
      refine ⟨p, b, hnumbered, hcheck, hb, ?_, ?_, ?_, ?_, ?_, ?_⟩
      · rw [hconversions .itod (by decide), hitod]
      · rw [hconversions .itos (by decide), hitos]
      · rw [hconversions .dtos (by decide), hdtos]
      · rw [hconversions .btos (by decide), hbtos]
      · rw [hprints, hstatements]
      · rw [hlength, hliterals, hunary, hbinary, hitod, hitos, hdtos, hbtos, hstatements]

end Program

end Tuga
