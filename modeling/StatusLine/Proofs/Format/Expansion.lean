import Mathlib.Data.List.DropRight
import StatusLine.Proofs.Format.Drawn
import StatusLine.Proofs.Format.Value
import StatusLine.Proofs.Number.Decimal

/-!
What the host shows for a format string with operations in it: it puts values in the places of
variables, measures and shortens them, compares numbers and takes one branch of a conditional. An
operation that is written down is read back as itself and shows what it comes to, whatever stands
around it.
-/

namespace StatusLine.Host

inductive Operation where
  | value (v : Variable)
  | length (v : Variable)
  | shorten (most : Nat) (mark : List Char) (v : Variable)
  | exceeds (left right : List Char)
  | choice (test yes no : List Char)
deriving DecidableEq

namespace Operation

def write : Operation → List Char
  | value v => v.name.toList
  | length v => 'n' :: ':' :: v.name.toList
  | shorten most mark v =>
      '=' :: '/' :: '-' :: (Nat.toDigits 10 most ++ '/' :: (mark ++ ':' :: v.name.toList))
  | exceeds left right => 'e' :: '|' :: '>' :: ':' :: (left ++ ',' :: right)
  | choice test yes no => '?' :: (test ++ ',' :: (yes ++ ',' :: no))

def token (op : Operation) : List Char := '#' :: '{' :: op.write ++ ['}']

/-- More than the length of each format string inside. -/
def size : Operation → Nat
  | exceeds left right => left.length + right.length + 1
  | choice test yes no => test.length + yes.length + no.length + 1
  | _ => 0

end Operation

def operation? : List Char → Option (Operation × List Char)
  | '?' :: cs => do
      let (test, cs) ← cut ',' 0 cs
      let (yes, cs) ← cut ',' 0 cs
      let (no, rest) ← cut '}' 0 cs
      some (.choice test yes no, rest)
  | 'e' :: '|' :: '>' :: ':' :: cs => do
      let (left, cs) ← cut ',' 0 cs
      let (right, rest) ← cut '}' 0 cs
      some (.exceeds left right, rest)
  | '=' :: '/' :: '-' :: cs => do
      let (count, cs) ← cut '/' 0 cs
      let most ← Integer.natural? count
      let (mark, cs) ← cut ':' 0 cs
      let (v, rest) ← named? cs
      some (.shorten most mark v, rest)
  | 'n' :: ':' :: cs => (named? cs).map fun r => (.length r.1, r.2)
  | cs => (named? cs).map fun r => (.value r.1, r.2)

theorem operation?_length {cs : List Char} {r : Operation × List Char}
    (h : operation? cs = some r) : r.1.size + r.2.length < cs.length := by
  simp only [operation?] at h
  split at h
  · simp only [bind, Option.bind_eq_some_iff, Option.some.injEq] at h
    obtain ⟨a, ha, b, hb, c, hc, rfl⟩ := h
    have := cut_length ha
    have := cut_length hb
    have := cut_length hc
    simp only [Operation.size, List.length_cons]
    omega
  · simp only [bind, Option.bind_eq_some_iff, Option.some.injEq] at h
    obtain ⟨a, ha, b, hb, rfl⟩ := h
    have := cut_length ha
    have := cut_length hb
    simp only [Operation.size, List.length_cons]
    omega
  · simp only [bind, Option.bind_eq_some_iff, Option.some.injEq] at h
    obtain ⟨a, ha, most, -, b, hb, c, hc, rfl⟩ := h
    have := cut_length ha
    have := cut_length hb
    have := named?_length hc
    simp only [Operation.size, List.length_cons]
    omega
  · obtain ⟨a, ha, rfl⟩ := Option.map_eq_some_iff.mp h
    have := named?_length ha
    simp only [Operation.size, List.length_cons]
    omega
  · obtain ⟨a, ha, rfl⟩ := Option.map_eq_some_iff.mp h
    have := named?_length ha
    simp only [Operation.size]
    omega

/-- A value of at most `most` characters as it is, and of a longer one the end behind a mark. -/
def shortened (most : Nat) (mark value : List Char) : List Char :=
  if value.length ≤ most then value else mark ++ value.rtake most

/-- Everything but nothing and a zero counts as true. -/
def isTrue (cs : List Char) : Bool := !cs.isEmpty && cs != ['0']

def flag (b : Bool) : List Char := if b then ['1'] else ['0']

theorem isTrue_flag (b : Bool) : isTrue (flag b) = b := by cases b <;> rfl

mutual

/-- What is shown for a format string where the variables have the values of `env`; none where the
host cannot make anything of an operation. -/
def expansion? (env : Variable → String) : List Char → Option (List Char)
  | [] => some []
  | '#' :: '{' :: cs =>
      match _h : operation? cs with
      | some r => do
          let shown ← outcome? env r.1
          let more ← expansion? env r.2
          some (shown ++ more)
      | none => none
  | '#' :: '#' :: cs => (expansion? env cs).map ('#' :: ·)
  | '#' :: ',' :: cs => (expansion? env cs).map (',' :: ·)
  | '#' :: '}' :: cs => (expansion? env cs).map ('}' :: ·)
  | c :: cs => (expansion? env cs).map (c :: ·)
termination_by cs => cs.length
decreasing_by
  · have := operation?_length _h
    simp only [List.length_cons]
    omega
  · have := operation?_length _h
    simp only [List.length_cons]
    omega
  all_goals simp only [List.length_cons]; omega

def outcome? (env : Variable → String) : Operation → Option (List Char)
  | .value v => some (env v).toList
  | .length v => some (Nat.toDigits 10 (env v).toList.length)
  | .shorten most mark v => some (shortened most mark (env v).toList)
  | .exceeds left right => do
      let a ← (expansion? env left).bind Integer.read?
      let b ← (expansion? env right).bind Integer.read?
      some (flag (b < a))
  | .choice test yes no => do
      let answer ← expansion? env test
      expansion? env (if isTrue answer then yes else no)
termination_by op => op.size
decreasing_by
  all_goals
    simp only [Operation.size]
    try split
    all_goals omega

end

variable {env : Variable → String}

theorem expansion?_cons {c : Char} (h : c ≠ '#') (cs : List Char) :
    expansion? env (c :: cs) = (expansion? env cs).map (c :: ·) := by
  rw [expansion?] <;> simp [h]

theorem expansion?_operation {cs rest shown : List Char} {op : Operation}
    (h : operation? cs = some (op, rest)) (hshown : outcome? env op = some shown) :
    expansion? env ('#' :: '{' :: cs) = (expansion? env rest).map (shown ++ ·) := by
  rw [expansion?]
  split
  · rename_i heq
    cases h.symm.trans heq
    rw [hshown]
    cases expansion? env rest <;> rfl
  · rename_i heq
    cases h.symm.trans heq

theorem Crossed.of_forall {cs : List Char} (least : Int)
    (h : ∀ c ∈ cs, c ≠ '#' ∧ c ≠ ',' ∧ c ≠ '}') : Crossed least cs := by
  induction cs with
  | nil => exact .nil least
  | cons c cs ih =>
      obtain ⟨hhash, hcomma, hbrace⟩ := h c List.mem_cons_self
      exact .append (a := [c]) (.char least hhash hcomma hbrace)
        (ih fun d hd => h d (List.mem_cons_of_mem c hd))

/-- Text in which no character counts for more than itself, inside an operation either. -/
def IsBland (cs : List Char) : Prop := ∀ c ∈ cs, c ∉ ['#', ',', '/', ':', '}']

namespace IsBland

theorem name (v : Variable) : IsBland v.name.toList := by
  intro c hc hmem
  simp only [List.mem_cons, List.not_mem_nil, or_false] at hmem
  rcases hmem with rfl | rfl | rfl | rfl | rfl
  · exact v.not_mem_name (show String.utf8EncodeChar '#' = [35] from rfl) rfl hc
  · exact v.not_mem_name (show String.utf8EncodeChar ',' = [44] from rfl) rfl hc
  · exact v.not_mem_name (show String.utf8EncodeChar '/' = [47] from rfl) rfl hc
  · exact v.not_mem_name (show String.utf8EncodeChar ':' = [58] from rfl) rfl hc
  · exact v.not_mem_name (show String.utf8EncodeChar '}' = [125] from rfl) rfl hc

theorem digits (n : Nat) : IsBland (Nat.toDigits 10 n) := by
  intro c hc hmem
  have hdigit := Integer.isDigit_of_mem_toDigits hc
  simp only [List.mem_cons, List.not_mem_nil, or_false] at hmem
  rcases hmem with rfl | rfl | rfl | rfl | rfl <;> cases hdigit

variable {cs : List Char}

theorem crossed (h : IsBland cs) (least : Int) : Crossed least cs := by
  refine .of_forall least fun c hc => ?_
  have hother := h c hc
  simp only [List.mem_cons, List.not_mem_nil, or_false, not_or] at hother
  exact ⟨hother.1, hother.2.1, hother.2.2.2.2⟩

theorem cut_stop (h : IsBland cs) (stop : Char) (hstop : stop ∈ ['/', ':']) (rest : List Char) :
    cut stop 0 (cs ++ stop :: rest) = some (cs, rest) := by
  have hhash : stop ≠ '#' := by rintro rfl; simp at hstop
  induction cs with
  | nil => simp [cut_cons 0 rest hhash]
  | cons c cs ih =>
      have hc := h c List.mem_cons_self
      have hne : c ≠ stop := by
        rintro rfl
        simp only [List.mem_cons, List.not_mem_nil, or_false] at hstop
        rcases hstop with rfl | rfl <;> simp at hc
      simp only [List.mem_cons, List.not_mem_nil, or_false, not_or] at hc
      rw [List.cons_append, cut_cons 0 _ hc.1]
      simp [hne, hc, ih fun d hd => h d (List.mem_cons_of_mem c hd)]

end IsBland

namespace Operation

/-- Whether the parts of an operation end where they are meant to. -/
def IsClosed : Operation → Prop
  | shorten _ mark _ => IsBland mark
  | exceeds left right => Crossed 0 left ∧ Crossed 0 right
  | choice test yes no => Crossed 0 test ∧ Crossed 0 yes ∧ Crossed 0 no
  | _ => True

end Operation

-- No name goes on to a character that names do not have, so none is taken for another operation.
theorem name_ne_append {v : Variable} {d : Char} (hd : d ∉ v.name.toList) (hne : d ≠ '}')
    (before : List Char) (hbefore : '}' ∉ before) (rest after : List Char) :
    v.name.toList ++ '}' :: rest ≠ before ++ d :: after := by
  intro heq
  rcases List.append_eq_append_iff.mp heq with ⟨cs, rfl, hcs⟩ | ⟨cs, hname, hcs⟩
  · cases cs with
    | nil => exact hne (List.cons.inj hcs).1.symm
    | cons c cs =>
        obtain ⟨rfl, -⟩ := List.cons.inj hcs
        exact hbefore (by simp)
  · cases cs with
    | nil => exact hne (List.cons.inj hcs).1
    | cons c cs =>
        obtain ⟨rfl, -⟩ := List.cons.inj hcs
        exact hd (by simp [hname])

theorem operation?_name (v : Variable) (rest : List Char) :
    operation? (v.name.toList ++ '}' :: rest) = some (.value v, rest) := by
  have hquestion := v.not_mem_name (show String.utf8EncodeChar '?' = [63] from rfl) rfl
  have hbar := v.not_mem_name (show String.utf8EncodeChar '|' = [124] from rfl) rfl
  have hslash := v.not_mem_name (show String.utf8EncodeChar '/' = [47] from rfl) rfl
  have hcolon := v.not_mem_name (show String.utf8EncodeChar ':' = [58] from rfl) rfl
  rw [operation?, named?_name]
  · rfl
  · exact name_ne_append hquestion (by decide) [] (by decide) rest
  · exact fun cs => name_ne_append hbar (by decide) ['e'] (by decide) rest ('>' :: ':' :: cs)
  · exact fun cs => name_ne_append hslash (by decide) ['='] (by decide) rest ('-' :: cs)
  · exact name_ne_append hcolon (by decide) ['n'] (by decide) rest

theorem operation?_write {op : Operation} (h : op.IsClosed) (rest : List Char) :
    operation? (op.write ++ '}' :: rest) = some (op, rest) := by
  cases op with
  | value v => exact operation?_name v rest
  | length v => simp [Operation.write, operation?, named?_name]
  | shorten most mark v =>
      have hcount := (IsBland.digits most).cut_stop '/' (by decide)
        (mark ++ ':' :: (v.name.toList ++ '}' :: rest))
      have hmark := IsBland.cut_stop h ':' (by decide) (v.name.toList ++ '}' :: rest)
      simp [Operation.write, operation?, hcount, Integer.natural?_toDigits, hmark, named?_name]
  | exceeds left right =>
      have hleft := Crossed.cut_stop (.inl rfl) h.1 (right ++ '}' :: rest)
      have hright := Crossed.cut_stop (.inr rfl) h.2 rest
      simp [Operation.write, operation?, hleft, hright]
  | choice test yes no =>
      have htest := Crossed.cut_stop (.inl rfl) h.1 (yes ++ ',' :: (no ++ '}' :: rest))
      have hyes := Crossed.cut_stop (.inl rfl) h.2.1 (no ++ '}' :: rest)
      have hno := Crossed.cut_stop (.inr rfl) h.2.2 rest
      simp [Operation.write, operation?, htest, hyes, hno]

theorem crossed_token (op : Operation) (h : op.IsClosed) : Crossed 0 op.token := by
  have hle : (0 : Int) ≤ 1 := by decide
  have hname (v : Variable) : Crossed 1 v.name.toList := (IsBland.name v).crossed 1
  have hcomma : Crossed 1 [','] := .comma
  refine .braced ?_
  cases op with
  | value v => exact hname v
  | length v =>
      have hsign : Crossed 1 ['n', ':'] := .of_forall 1 (by simp)
      exact hsign.append (hname v)
  | shorten most mark v =>
      have hsign : Crossed 1 ['=', '/', '-'] := .of_forall 1 (by simp)
      have hcount : Crossed 1 (Nat.toDigits 10 most) := (IsBland.digits most).crossed 1
      have hslash : Crossed 1 ['/'] := .of_forall 1 (by simp)
      have hmark : Crossed 1 mark := IsBland.crossed h 1
      have hcolon : Crossed 1 [':'] := .of_forall 1 (by simp)
      exact hsign.append (hcount.append (hslash.append (hmark.append (hcolon.append (hname v)))))
  | exceeds left right =>
      have hsign : Crossed 1 ['e', '|', '>', ':'] := .of_forall 1 (by simp)
      exact hsign.append ((h.1.mono hle).append (hcomma.append (h.2.mono hle)))
  | choice test yes no =>
      have hsign : Crossed 1 ['?'] := .of_forall 1 (by simp)
      exact hsign.append ((h.1.mono hle).append (hcomma.append ((h.2.1.mono hle).append
        (hcomma.append (h.2.2.mono hle)))))

def ExpandsTo (env : Variable → String) (cs shown : List Char) : Prop :=
  ∀ rest, expansion? env (cs ++ rest) = (expansion? env rest).map (shown ++ ·)

namespace ExpandsTo

theorem nil : ExpandsTo env [] [] := by
  intro rest
  simp

theorem append {a b x y : List Char} (ha : ExpandsTo env a x) (hb : ExpandsTo env b y) :
    ExpandsTo env (a ++ b) (x ++ y) := by
  intro rest
  rw [List.append_assoc, ha, hb]
  simp [Option.map_map, Function.comp_def]

theorem all {cs shown : List Char} (h : ExpandsTo env cs shown) :
    expansion? env cs = some shown := by
  have hnil := h []
  rw [List.append_nil, expansion?] at hnil
  simpa using hnil

theorem bland {cs : List Char} (h : IsBland cs) : ExpandsTo env cs cs := by
  induction cs with
  | nil => exact nil
  | cons c cs ih =>
      have hc : c ≠ '#' := fun heq => h c List.mem_cons_self (by simp [heq])
      exact append (a := [c]) (x := [c]) (fun rest => expansion?_cons hc rest)
        (ih fun d hd => h d (List.mem_cons_of_mem c hd))

theorem token (op : Operation) (h : op.IsClosed) {shown : List Char}
    (hshown : outcome? env op = some shown) : ExpandsTo env op.token shown := by
  intro rest
  have hread := expansion?_operation (operation?_write h rest) hshown
  simpa [Operation.token] using hread

end ExpandsTo

theorem outcome?_value (v : Variable) : outcome? env (.value v) = some (env v).toList := by
  rw [outcome?]

theorem outcome?_length (v : Variable) :
    outcome? env (.length v) = some (Nat.toDigits 10 (env v).toList.length) := by
  rw [outcome?]

theorem outcome?_shorten (most : Nat) (mark : List Char) (v : Variable) :
    outcome? env (.shorten most mark v) = some (shortened most mark (env v).toList) := by
  rw [outcome?]

theorem outcome?_exceeds {left right a b : List Char} {x y : Int} (ha : ExpandsTo env left a)
    (hb : ExpandsTo env right b) (hx : Integer.read? a = some x) (hy : Integer.read? b = some y) :
    outcome? env (.exceeds left right) = some (flag (y < x)) := by
  simp [outcome?, ha.all, hb.all, hx, hy]

theorem outcome?_choice {test yes no a b : List Char} {answer : Bool}
    (htest : ExpandsTo env test (flag answer)) (ha : ExpandsTo env yes a)
    (hb : ExpandsTo env no b) :
    outcome? env (.choice test yes no) = some (if answer then a else b) := by
  rw [outcome?, htest.all, Option.bind_eq_bind, Option.bind_some, isTrue_flag]
  cases answer with
  | true => exact ha.all
  | false => exact hb.all

end StatusLine.Host
