import Tuga.Proofs.Codegen.Operations
import Tuga.Proofs.Codegen.Pool

namespace Tuga.Codegen

open Machine

theorem typeOf_eq {types : TypeMap} {e : Expr} {t : ValueType} (h : types.of e.id = .typed t) :
    typeOf types e = pure (.typed t) := by
  rw [typeOf, h]

section Binary

variable {types : TypeMap} {info : NodeInfo} {level : Level} {op : Operator} {left right : Expr}
  {l r t : ValueType}

-- Whether the code of a binary node is that of its operands and an operation for its operator.
def LowersNode (types : TypeMap) (info : NodeInfo) (level : Level) (op : Operator)
    (left right : Expr) (l r : ValueType) : Prop :=
  ∃ convert o, expression types (.binary info level op left right) =
      operation types convert left right (expression types left) (expression types right) o ∧
    Lowers op l r convert o

theorem lowersNode_additive (hlevel : op.level? = some .additive)
    (ht : Level.additive.type? op l r = some t) (he : types.of info.id = .typed t) :
    LowersNode types info .additive op left right l r := by
  have he : typeOf types (.binary info .additive op left right) = pure (.typed t) := typeOf_eq he
  by_cases htext : op = .plus ∧ (l = .text ∨ r = .text)
  · obtain ⟨rfl, htext⟩ := htext
    obtain rfl : ValueType.text = t := by simpa [Level.type?, htext] using ht
    refine ⟨_, _, ?_, lowers_concat htext⟩
    rw [expression, he, pure_bind, if_pos rfl]
  · have harith : l.arithmetic? r = some t := by simpa [Level.type?, htext] using ht
    obtain ⟨o, ho⟩ : ∃ o, arithmetic? op (NodeType.typed t = .typed .real) = some o := by
      cases op <;> cases hlevel <;> exact ⟨_, rfl⟩
    refine ⟨_, o, ?_, lowers_arithmetic harith ho⟩
    rw [expression, he, pure_bind, if_neg (arithmetic?_ne_text harith)]
    simp only [ho]

theorem lowersNode_multiplicative (hlevel : op.level? = some .multiplicative)
    (ht : Level.multiplicative.type? op l r = some t) (he : types.of info.id = .typed t) :
    LowersNode types info .multiplicative op left right l r := by
  have he : typeOf types (.binary info .multiplicative op left right) = pure (.typed t) :=
    typeOf_eq he
  by_cases hmod : op = .mod
  · subst hmod
    obtain ⟨⟨rfl, rfl⟩, rfl⟩ : (l = .integer ∧ r = .integer) ∧ ValueType.integer = t := by
      simpa [Level.type?] using ht
    refine ⟨_, _, ?_, lowers_modulo⟩
    rw [expression, he, pure_bind, if_pos rfl]
  · have harith : l.arithmetic? r = some t := by simpa [Level.type?, hmod] using ht
    obtain ⟨o, ho⟩ : ∃ o, arithmetic? op (NodeType.typed t = .typed .real) = some o := by
      cases op <;> cases hlevel <;> first | exact ⟨_, rfl⟩ | cases hmod rfl
    refine ⟨_, o, ?_, lowers_arithmetic harith ho⟩
    rw [expression, he, pure_bind, if_neg hmod]
    simp only [ho]

theorem lowersNode_binary (hlevel : op.level? = some level) (ht : level.type? op l r = some t)
    (hl : types.of left.id = .typed l) (hr : types.of right.id = .typed r)
    (he : types.of info.id = .typed t) : LowersNode types info level op left right l r := by
  cases level with
  | additive => exact lowersNode_additive hlevel ht he
  | multiplicative => exact lowersNode_multiplicative hlevel ht he
  | relational | equality =>
      obtain ⟨common, o, hcompare, hlowers⟩ := exists_compare? hlevel (by simp) ht
      refine ⟨_, o, ?_, hlowers⟩
      rw [expression, typeOf_eq hl, typeOf_eq hr, pure_bind, pure_bind, hcompare]
  | conjunction =>
      obtain rfl : op = .and := by
        cases op <;> cases hlevel
        rfl
      obtain ⟨⟨rfl, rfl⟩, rfl⟩ : (l = .boolean ∧ r = .boolean) ∧ ValueType.boolean = t := by
        simpa [Level.type?] using ht
      refine ⟨_, _, by rw [expression], lowers_booleans (by decide) rfl ?_⟩
      exact fun program x y => .instruction fun stack => rfl
  | disjunction =>
      obtain rfl : op = .or := by
        cases op <;> cases hlevel
        rfl
      obtain ⟨⟨rfl, rfl⟩, rfl⟩ : (l = .boolean ∧ r = .boolean) ∧ ValueType.boolean = t := by
        simpa [Level.type?] using ht
      refine ⟨_, _, by rw [expression], lowers_booleans (by decide) rfl ?_⟩
      exact fun program x y => .instruction fun stack => rfl

theorem operation_eq_ok {convert : NodeType → List Instruction} {o : Operation}
    {leftCode rightCode : Gen (List Instruction)} {pool pool' : List Constant}
    {code : List Instruction} (hl : types.of left.id = .typed l)
    (hr : types.of right.id = .typed r)
    (h : operation types convert left right leftCode rightCode o pool = .ok (code, pool')) :
    ∃ ls rs mid, leftCode pool = .ok (ls, mid) ∧ rightCode mid = .ok (rs, pool') ∧
      code = ls ++ convert (.typed l) ++ (rs ++ convert (.typed r)) ++ [.of o] := by
  simp only [operation, operand, typeOf_eq hl, typeOf_eq hr, pure_bind, bind_assoc,
    stateT_bind_eq_ok, stateT_pure_eq_ok] at h
  obtain ⟨ls, mid, hls, rs, last, hrs, rfl, rfl⟩ := h
  exact ⟨ls, rs, mid, hls, hrs, rfl⟩

end Binary

theorem plain_of (o : Operation) : (Instruction.of o).Plain := by
  refine ⟨?_, fun _ => rfl⟩
  rw [Instruction.of, Opcode.isValid, Opcode.operation?_code]
  rfl

theorem plain_load {o : Operation} (ho : o.hasOperand) (arg : Int32) :
    (Instruction.mk o.code arg).Plain := by
  refine ⟨?_, fun hnone => ?_⟩
  · rw [Opcode.isValid, Opcode.operation?_code]
    rfl
  · rw [Opcode.hasOperand_of_operation (Opcode.operation?_code o), ho] at hnone
    cases hnone

-- An instruction that prints nothing.
def Silent (i : Instruction) : Prop :=
  i.op.operation?.any Operation.isPrint = false

theorem silent_of {o : Operation} {arg : Int32} (ho : o.isPrint = false) :
    Silent ⟨o.code, arg⟩ := by
  simp [Silent, Opcode.operation?_code, ho]

theorem load_eq_ok {o : Operation} {c : Constant} {pool pool' : List Constant}
    {code : List Instruction} (h : load o c pool = .ok (code, pool')) :
    code = [⟨o.code, Int32.ofNat (pooled pool c).1⟩] ∧ pool' = (pooled pool c).2 := by
  cases h
  exact ⟨rfl, rfl⟩

-- What generation does besides giving the code its meaning: the pool grows by reals and texts, and
-- the code can be written to a file.
structure Emits (pool : List Constant) (code : List Instruction) (pool' : List Constant) :
    Prop where
  grows : pool <+: pool'
  constants : ∀ c ∈ pool', c ∈ pool ∨ (∃ value, c = .ofReal value) ∨ ∃ value, c = .ofText value
  plain : ∀ i ∈ code, i.Plain

namespace Emits

variable {pool mid pool' : List Constant} {code code' : List Instruction}

theorem append (h : Emits pool code mid) (h' : Emits mid code' pool') :
    Emits pool (code ++ code') pool' where
  grows := h.grows.trans h'.grows
  constants := by
    intro c hc
    rcases h'.constants c hc with hmid | hnew
    · exact h.constants c hmid
    · exact Or.inr hnew
  plain := List.forall_mem_append.mpr ⟨h.plain, h'.plain⟩

theorem of_plain (pool : List Constant) (h : ∀ i ∈ code, i.Plain) : Emits pool code pool where
  grows := List.prefix_refl pool
  constants := fun _ hc => Or.inl hc
  plain := h

theorem load {o : Operation} {c : Constant} (ho : o.hasOperand)
    (hc : (∃ value, c = .ofReal value) ∨ ∃ value, c = .ofText value)
    (h : Codegen.load o c pool = .ok (code, pool')) : Emits pool code pool' := by
  obtain ⟨rfl, rfl⟩ := load_eq_ok h
  refine ⟨prefix_pooled pool c, ?_, ?_⟩
  · intro d hd
    rcases mem_pooled hd with hold | rfl
    · exact Or.inl hold
    · exact Or.inr hc
  · simpa using plain_load ho _

end Emits

theorem computes_load {program : Bytecode} {read : Text → Text} {o : Operation} {c : Constant}
    {kind : ConstantKind} {value : Constant → Value} {v : Value} {pool pool' : List Constant}
    {code : List Instruction} (h : load o c pool = .ok (code, pool'))
    (ho : ∀ arg, perform program arg o = loadConstant program kind value arg)
    (hc : ∀ d : Constant, d.same c → d.kind = kind ∧ value (d.mapText read) = v)
    (hpool : program.Holds read pool') : Computes program code [] (.ok v) := by
  obtain ⟨rfl, rfl⟩ := load_eq_ok h
  obtain ⟨d, hd, hsame⟩ := getElem?_pooled pool c
  obtain ⟨hkind, rfl⟩ := hc d hsame
  refine .instruction fun stack => ?_
  rw [execute_code, ho]
  exact loadConstant_eq (hpool _ d hd) (by simpa using hkind) stack

-- The code of an expression: nothing it does shows but its value.
structure Lowered (e : Expr) (pool : List Constant) (code : List Instruction)
    (pool' : List Constant) : Prop where
  emits : Emits pool code pool'
  silent : ∀ i ∈ code, Silent i
  computes : ∀ (program : Bytecode) (read : Text → Text), program.Holds read pool' →
    Computes program code [] (e.evaluate read)

theorem Lowered.unary {e operand : Expr} {o : Operation} {f : Value → Except Failure Value}
    {pool pool' : List Constant} {code : List Instruction} (h : Lowered operand pool code pool')
    (ho : o.isPrint = false) (he : ∀ read, e.evaluate read = operand.evaluate read >>= f)
    (hf : ∀ program read v, operand.evaluate read = .ok v →
      Computes program [.of o] [v] (f v)) :
    Lowered e pool (code ++ [.of o]) pool' where
  emits := h.emits.append (.of_plain _ (by simpa using plain_of o))
  silent := List.forall_mem_append.mpr ⟨h.silent, List.forall_mem_singleton.mpr (silent_of ho)⟩
  computes := by
    intro program read hpool
    rw [he read]
    exact (h.computes program read hpool).bind fun v hv => hf program read v hv

theorem Lowered.binary {left right : Expr} {info : NodeInfo} {level : Level} {op : Operator}
    {o : Operation} {convert : NodeType → List Instruction} {l r : ValueType}
    {pool mid pool' : List Constant} {ls rs : List Instruction} (hleft : Lowered left pool ls mid)
    (hright : Lowered right mid rs pool') (hop : Lowers op l r convert o)
    (hl : ∀ read v, left.evaluate read = .ok v → v.type = l)
    (hr : ∀ read v, right.evaluate read = .ok v → v.type = r) :
    Lowered (.binary info level op left right) pool
      (ls ++ convert (.typed l) ++ (rs ++ convert (.typed r)) ++ [.of o]) pool' := by
  have hplain : ∀ t, ∀ i ∈ convert t, i.Plain := by
    intro t i hi
    obtain ⟨c, rfl, -⟩ := hop.convert_silent t i hi
    exact plain_of c
  have hsilent : ∀ t, ∀ i ∈ convert t, Silent i := by
    intro t i hi
    obtain ⟨c, rfl, hc⟩ := hop.convert_silent t i hi
    exact silent_of hc
  have hlast := List.forall_mem_singleton.mpr (plain_of o)
  refine ⟨?_, ?_, ?_⟩
  · exact ((hleft.emits.append (.of_plain _ (hplain _))).append
      (hright.emits.append (.of_plain _ (hplain _)))).append (.of_plain _ hlast)
  · simp only [List.forall_mem_append, List.forall_mem_singleton]
    exact ⟨⟨⟨hleft.silent, hsilent _⟩, hright.silent, hsilent _⟩, silent_of hop.silent⟩
  · intro program read hpool
    obtain ⟨converted, hconvert, hcomputes⟩ := hop.computes
    simp only [List.append_assoc]
    refine (hleft.computes program read (hpool.mono hright.emits.grows)).bind fun x hx => ?_
    have hx := hl read x hx
    refine .convert (hx ▸ hconvert program x) ?_
    refine (hright.computes program read hpool).bind fun y hy => ?_
    have hy := hr read y hy
    exact .convert (hy ▸ hconvert program y) (hcomputes program x y hx hy)

section Nodes

variable {types : TypeMap} {info : NodeInfo} {pool pool' : List Constant}
  {code : List Instruction}

theorem lowered_int {value : Int}
    (h : expression types (.int info value) pool = .ok (code, pool')) :
    Lowered (.int info value) pool code pool' := by
  rw [expression] at h
  split at h
  · cases h
    refine ⟨.of_plain _ ?_, ?_, ?_⟩
    · simpa using plain_load rfl _
    · simpa using silent_of rfl
    · intro program read _
      exact .instruction fun stack => rfl
  · cases h

theorem lowered_bool {value : Bool}
    (h : expression types (.bool info value) pool = .ok (code, pool')) :
    Lowered (.bool info value) pool code pool' := by
  cases h
  refine ⟨.of_plain _ ?_, ?_, ?_⟩
  · simpa using plain_of _
  · cases value <;> exact List.forall_mem_singleton.mpr (silent_of rfl)
  · intro program read _
    cases value <;> exact .instruction fun stack => rfl

theorem lowered_real {value : Real64}
    (h : expression types (.real info value) pool = .ok (code, pool')) :
    Lowered (.real info value) pool code pool' := by
  refine ⟨.load rfl (Or.inl ⟨value, rfl⟩) h, ?_, ?_⟩
  · rw [(load_eq_ok h).1]
    simpa using silent_of rfl
  · intro program read hpool
    refine computes_load h (fun arg => rfl) (fun d hd => ?_) hpool
    obtain ⟨hkind, rfl⟩ := Constant.same_ofReal hd
    exact ⟨hkind, by rw [Constant.real_mapText]⟩

theorem lowered_text {quoted : Text}
    (h : expression types (.text info quoted) pool = .ok (code, pool')) :
    Lowered (.text info quoted) pool code pool' := by
  refine ⟨.load rfl (Or.inr ⟨quoted, rfl⟩) h, ?_, ?_⟩
  · rw [(load_eq_ok h).1]
    simpa using silent_of rfl
  · intro program read hpool
    refine computes_load h (fun arg => rfl) (fun d hd => ?_) hpool
    obtain ⟨hkind, rfl⟩ := Constant.same_ofText hd
    exact ⟨hkind, by rw [Constant.text_mapText read hkind]⟩

variable {operand left right : Expr} {level : Level} {op : Operator}

theorem lowered_neg (he : (Expr.neg info operand).Annotated types)
    (ih : ∀ {code pool'}, expression types operand pool = .ok (code, pool') →
      Lowered operand pool code pool')
    (h : expression types (.neg info operand) pool = .ok (code, pool')) :
    Lowered (.neg info operand) pool code pool' := by
  obtain ⟨t, ht, htypes⟩ := he.exists_type
  obtain ⟨t', ht', hneg⟩ := Option.bind_eq_some_iff.mp ht
  have hoperand : operand.Annotated types := he.part (by simp [Expr.children])
  rw [expression, typeOf_eq htypes, pure_bind, stateT_bind_eq_ok] at h
  obtain ⟨is, mid, his, h⟩ := h
  obtain ⟨rfl, rfl⟩ := stateT_pure_eq_ok.mp h
  refine (ih his).unary ?_ (fun read => rfl) ?_
  · split <;> rfl
  · intro program read v hv
    obtain rfl := hoperand.type_evaluate ht' hv
    cases v <;> cases hneg
    · simp only [Value.neg, Int32.ofInt_neg, Int32.ofInt_toInt]
      exact .instruction fun stack => rfl
    · exact .instruction fun stack => rfl

theorem lowered_not (he : (Expr.not info operand).Annotated types)
    (ih : ∀ {code pool'}, expression types operand pool = .ok (code, pool') →
      Lowered operand pool code pool')
    (h : expression types (.not info operand) pool = .ok (code, pool')) :
    Lowered (.not info operand) pool code pool' := by
  obtain ⟨t, ht, -⟩ := he.exists_type
  obtain ⟨t', ht', hnot⟩ := Option.bind_eq_some_iff.mp ht
  have hoperand : operand.Annotated types := he.part (by simp [Expr.children])
  rw [expression, stateT_bind_eq_ok] at h
  obtain ⟨is, mid, his, h⟩ := h
  obtain ⟨rfl, rfl⟩ := stateT_pure_eq_ok.mp h
  refine (ih his).unary rfl (fun read => rfl) ?_
  intro program read v hv
  obtain rfl := hoperand.type_evaluate ht' hv
  cases v <;> cases hnot
  exact .instruction fun stack => rfl

theorem lowered_binary (he : (Expr.binary info level op left right).Annotated types)
    (ihl : ∀ {code pool'}, expression types left pool = .ok (code, pool') →
      Lowered left pool code pool')
    (ihr : ∀ {pool code pool'}, expression types right pool = .ok (code, pool') →
      Lowered right pool code pool')
    (h : expression types (.binary info level op left right) pool = .ok (code, pool')) :
    Lowered (.binary info level op left right) pool code pool' := by
  obtain ⟨t, ht, htypes⟩ : ∃ t, _ ∧ types.of info.id = .typed t := he.exists_type
  obtain ⟨l, hl, ht⟩ := Option.bind_eq_some_iff.mp ht
  obtain ⟨r, hr, ht⟩ := Option.bind_eq_some_iff.mp ht
  have hleft : left.Annotated types := he.part (by simp [Expr.children])
  have hright : right.Annotated types := he.part (by simp [Expr.children])
  obtain ⟨l', hl', hltypes⟩ := hleft.exists_type
  obtain ⟨r', hr', hrtypes⟩ := hright.exists_type
  obtain rfl : l = l' := Option.some.inj (hl.symm.trans hl')
  obtain rfl : r = r' := Option.some.inj (hr.symm.trans hr')
  obtain ⟨convert, o, heq, hlowers⟩ := lowersNode_binary he.leveled ht hltypes hrtypes htypes
  rw [heq] at h
  obtain ⟨ls, rs, mid, hls, hrs, rfl⟩ := operation_eq_ok hltypes hrtypes h
  exact (ihl hls).binary (ihr hrs) hlowers
    (fun read v hv => hleft.type_evaluate hl hv) (fun read v hv => hright.type_evaluate hr hv)

end Nodes

-- Induction on the expression, for every pool: a right operand starts from the pool that the left
-- one has left, and only the last pool has to be held.
theorem expression_lowered {types : TypeMap} {e : Expr} {pool pool' : List Constant}
    {code : List Instruction} (he : e.Annotated types)
    (h : expression types e pool = .ok (code, pool')) : Lowered e pool code pool' := by
  induction e generalizing pool code pool' with
  | int info value => exact lowered_int h
  | real info value => exact lowered_real h
  | text info quoted => exact lowered_text h
  | bool info value => exact lowered_bool h
  | paren info inner ih =>
      have hinner := ih (he.part (by simp [Expr.children])) h
      exact ⟨hinner.emits, hinner.silent, hinner.computes⟩
  | neg info operand ih =>
      have hoperand : operand.Annotated types := he.part (by simp [Expr.children])
      exact lowered_neg he (fun h => ih hoperand h) h
  | not info operand ih =>
      have hoperand : operand.Annotated types := he.part (by simp [Expr.children])
      exact lowered_not he (fun h => ih hoperand h) h
  | binary info level op left right ihl ihr =>
      have hleft : left.Annotated types := he.part (by simp [Expr.children])
      have hright : right.Annotated types := he.part (by simp [Expr.children])
      exact lowered_binary he (fun h => ihl hleft h) (fun h => ihr hright h) h

end Tuga.Codegen
