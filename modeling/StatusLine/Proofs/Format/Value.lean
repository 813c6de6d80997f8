import StatusLine.Proofs.Slots

/-!
Content as it is shown: the host puts the value of a variable in its place and takes the escapes
out. An output without host syntax is shown piece by piece, whatever its texts begin and end with,
and an error is shown word for word.
-/

namespace StatusLine

namespace Host

def named? (cs : List Char) : Option (Variable × List Char) :=
  match cs.dropWhile (· != '}') with
  | [] => none
  | _ :: rest =>
      (Variable.ofName? (String.ofList (cs.takeWhile (· != '}')))).map fun v => (v, rest)

theorem named?_length {cs : List Char} {r : Variable × List Char} (h : named? cs = some r) :
    r.2.length < cs.length := by
  unfold named? at h
  split at h
  · cases h
  · rename_i c rest hdrop
    obtain ⟨v, -, rfl⟩ := Option.map_eq_some_iff.mp h
    have hlength := (List.dropWhile_suffix (· != '}') (l := cs)).length_le
    rwa [hdrop, List.length_cons] at hlength

def evaluate (env : Variable → String) : List Char → List Char
  | [] => []
  | '#' :: '#' :: cs => '#' :: evaluate env cs
  | '#' :: '{' :: cs =>
      match _h : named? cs with
      | some r => (env r.1).toList ++ evaluate env r.2
      | none => '#' :: evaluate env ('{' :: cs)
  | c :: cs => c :: evaluate env cs
termination_by cs => cs.length
decreasing_by
  · simp only [List.length_cons]; omega
  · have := named?_length _h
    simp only [List.length_cons]
    omega
  · simp
  · simp

def evaluateText (env : Variable → String) (s : String) : String :=
  String.ofList (evaluate env s.toList)

variable (env : Variable → String)

theorem evaluate_hash (cs : List Char) :
    evaluate env ('#' :: '#' :: cs) = '#' :: evaluate env cs := by
  rw [evaluate]

theorem evaluate_cons {c : Char} (h : c ≠ '#') (cs : List Char) :
    evaluate env (c :: cs) = c :: evaluate env cs := by
  rw [evaluate] <;> simp [h]

theorem evaluate_named {cs rest : List Char} {v : Variable} (h : named? cs = some (v, rest)) :
    evaluate env ('#' :: '{' :: cs) = (env v).toList ++ evaluate env rest := by
  rw [evaluate]
  split
  · rename_i heq
    cases h.symm.trans heq
    rfl
  · rename_i heq
    cases h.symm.trans heq

theorem named?_name (v : Variable) (rest : List Char) :
    named? (v.name.toList ++ '}' :: rest) = some (v, rest) := by
  have hname : ∀ c ∈ v.name.toList, (c != '}') = true := by
    intro c hc
    have hbyte : String.utf8EncodeChar '}' = [125] := rfl
    simpa using ne_of_mem_of_not_mem hc (v.not_mem_name hbyte rfl)
  have hdrop : (v.name.toList ++ '}' :: rest).dropWhile (· != '}') = '}' :: rest := by
    rw [List.dropWhile_append_of_pos hname]
    rfl
  have htake : (v.name.toList ++ '}' :: rest).takeWhile (· != '}') = v.name.toList := by
    rw [List.takeWhile_append_of_pos hname]
    simp
  simp only [named?, hdrop, htake, String.ofList_toList, Variable.ofName?_name, Option.map_some]

def ShownAs (cs shown : List Char) : Prop :=
  ∀ rest, evaluate env (cs ++ rest) = shown ++ evaluate env rest

namespace ShownAs

variable {env}

theorem nil : ShownAs env [] [] := fun _ => rfl

theorem append {a b x y : List Char} (ha : ShownAs env a x) (hb : ShownAs env b y) :
    ShownAs env (a ++ b) (x ++ y) := by
  intro rest
  rw [List.append_assoc, ha, hb, List.append_assoc]

theorem all {cs shown : List Char} (h : ShownAs env cs shown) : evaluate env cs = shown := by
  have hnil := h []
  rwa [List.append_nil, evaluate, List.append_nil] at hnil

theorem space : ShownAs env [' '] [' '] := fun rest => evaluate_cons env (by decide) rest

-- A doubled `#` takes nothing from what follows it, so no escape reaches over the end of a text.
theorem escape (cs : List Char) : ShownAs env (Expr.escape false cs) cs := by
  induction cs with
  | nil => exact nil
  | cons c cs ih =>
      have hc : ShownAs env (Expr.escapeChar false c) [c] := by
        intro rest
        by_cases hash : c = '#'
        · subst hash
          exact evaluate_hash env rest
        · simp [Expr.escapeChar, hash, evaluate_cons]
      exact append hc ih

theorem token (v : Variable) : ShownAs env v.token.toList (env v).toList := by
  intro rest
  have htoken : v.token.toList ++ rest = '#' :: '{' :: (v.name.toList ++ '}' :: rest) := by
    simp [Variable.token]
  rw [htoken, evaluate_named env (named?_name v rest)]

theorem padded {s t : String} (h : ShownAs env s.toList t.toList) :
    evaluateText env (padded s) = " " ++ t ++ " " := by
  have hall := ((space.append h).append space).all
  have htext : (StatusLine.padded s).toList = [' '] ++ s.toList ++ [' '] := by
    simp [StatusLine.padded]
  rw [evaluateText, htext, hall, String.ofList_append, String.ofList_append, String.ofList_toList]

end ShownAs

end Host

namespace Fragment

/-- A piece of an output that holds no host syntax of its own. -/
def IsPlain : Fragment → Prop
  | .format _ => False
  | _ => True

instance : DecidablePred IsPlain
  | .text _ => instDecidableTrue
  | .variable _ => instDecidableTrue
  | .format _ => instDecidableFalse

def value (env : Variable → String) : Fragment → String
  | .text s => s
  | .variable v => env v
  | .format s => Host.evaluateText env s

end Fragment

open Host (ShownAs evaluateText)

variable {env : Variable → String}

theorem Fragment.shown : ∀ {f : Fragment}, f.IsPlain → ShownAs env f.write (f.value env).toList
  | .text s, _ => ShownAs.escape s.toList
  | .variable v, _ => ShownAs.token v
  | .format _, h => h.elim

theorem Output.shown {o : Output} (h : ∀ f ∈ o, f.IsPlain) :
    ShownAs env o.format.toList (String.join (o.map (Fragment.value env))).toList := by
  rw [Output.format, String.toList_ofList]
  induction o with
  | nil => exact ShownAs.nil
  | cons f rest ih =>
      have hrest := ih fun g hg => h g (List.mem_cons_of_mem f hg)
      rw [List.flatMap_cons, List.map_cons, String.join_cons, String.toList_append]
      exact (Fragment.shown (h f List.mem_cons_self)).append hrest

theorem shown_escapeText (s : String) : ShownAs env (escapeText s).toList s.toList := by
  rw [escapeText, String.toList_ofList]
  exact ShownAs.escape s.toList

inductive Fails (registry : Registry) (args : Keyed Arguments) (name : String) :
    ProviderError → Prop
  | raised {provider : Provider} {e : ProviderError}
      (hlookup : registry.lookup name = some provider)
      (herror : provider ((args.find? name).getD []) = .error e) : Fails registry args name e
  | missing (hlookup : registry.lookup name = none) (hqualified : isQualified name = true) :
      Fails registry args name (.unknown name)

variable {registry : Registry} {args : Keyed Arguments} {name : String} {e : ProviderError}

theorem Fails.provided (h : Fails registry args name e) :
    provided registry args name = escapeText e.message := by
  cases h with
  | raised hlookup herror => simp only [StatusLine.provided, hlookup, herror]
  | missing hlookup hqualified => simp only [StatusLine.provided, hlookup, hqualified, if_true]

theorem Fails.resolve (h : Fails registry args name e) (hmessage : e.message ≠ "") {s : Segment}
    (hs : s.content = .provider name) :
    s.resolve registry args = attributed s.attrText (padded (escapeText e.message)) := by
  have hne : escapeText e.message ≠ "" := mt (escapeText_eq_empty_iff e.message).mp hmessage
  have hbody : s.body? registry args = some (escapeText e.message) := by
    simp [Segment.body?, hs, h.provided, hne]
  simp only [Segment.resolve, hbody]

/-- An output without host syntax is shown as its texts and the values of its variables, one after
the other, and the error of a provider word for word between two spaces, inside the attributes of
its segment if there are any. -/
theorem evaluateText_provided (env : Variable → String) :
    (∀ o : Output, (∀ f ∈ o, f.IsPlain) →
      evaluateText env o.format = String.join (o.map (Fragment.value env))) ∧
    (∀ registry args name e, Fails registry args name e → e.message ≠ "" →
      ∀ s : Segment, s.content = .provider name →
        (∃ content, s.resolve registry args = attributed s.attrText content ∧
          evaluateText env content = " " ++ e.message ++ " ") ∧
        (s.attrText = "" →
          evaluateText env (s.resolve registry args) = " " ++ e.message ++ " ")) := by
  refine ⟨fun o ho => ?_, fun registry args name e h hmessage s hs => ?_⟩
  · rw [evaluateText, (Output.shown ho).all, String.ofList_toList]
  · have hresolve := h.resolve hmessage hs
    have hcontent : evaluateText env (padded (escapeText e.message)) = " " ++ e.message ++ " " :=
      (shown_escapeText e.message).padded
    refine ⟨⟨_, hresolve, hcontent⟩, fun hattrs => ?_⟩
    rw [hresolve, hattrs]
    exact hcontent

theorem evaluateText_provided_hashes :
    let env : Variable → String := fun v => if v = .sessionName then "#\x7bhost\x7d" else "1"
    let o : Output := [.text "a#", .variable .sessionName, .text "\x7bpane_id\x7d#", .text "#["]
    let registry : Registry := [("clock", fun _ => .error (.failed "no #\x7bhost\x7d, #"))]
    let clock := (Segment.provider "clock").withStyle (Style.empty.withBg (.named .red))
    let mine := (Segment.provider "my.clock").withStyle (Style.empty.withAttr .bold)
    ((∀ f ∈ o, f.IsPlain) ∧
      evaluateText env o.format = "a##\x7bhost\x7d\x7bpane_id\x7d##[") ∧
    (Fails registry [] "clock" (.failed "no #\x7bhost\x7d, #") ∧ clock.attrText = "" ∧
      evaluateText env (clock.resolve registry []) = " no #\x7bhost\x7d, # ") ∧
    (Fails registry [] "my.clock" (.unknown "my.clock") ∧
      ∃ content, mine.resolve registry [] = attributed "bold" content ∧
        evaluateText env content = " unknown provider my.clock ") := by
  intro env o registry clock mine
  have hplain : ∀ f ∈ o, f.IsPlain := by decide
  have hraised : Fails registry [] "clock" (.failed "no #\x7bhost\x7d, #") := .raised rfl rfl
  have hmissing : Fails registry [] "my.clock" (.unknown "my.clock") := .missing rfl rfl
  obtain ⟨houtput, herror⟩ := evaluateText_provided env
  have hclock := (herror _ _ _ _ hraised (by decide) clock rfl).2 rfl
  have hmine := (herror _ _ _ _ hmissing (by decide) mine rfl).1
  exact ⟨⟨hplain, (houtput o hplain).trans rfl⟩, ⟨hraised, rfl, hclock⟩, hmissing, hmine⟩

end StatusLine
