import RailBus.Yaml.Value
import RailBus.Proofs.Tokens

/-!
# Documents of sections

A text of sections is read as the mapping of mappings that it shows, and numbers and truth values
are read back from their words.
-/

namespace RailBus.Yaml

/-! ## Nodes -/

def wordNode (text : String) : Node := .scalar text .plain none

def Section.node (s : Section) : Node × Node :=
  (wordNode s.name, .mapping (s.fields.map fun f => (wordNode f.1, wordNode f.2)))

namespace NodeReader

/-- Makes `a` of the tokens `ts`, whatever comes behind them, with two steps for each token. -/
def Makes {α : Type} (read : Nat → Read α) (ts : List Token) (a : α) : Prop :=
  ∀ (reader : NodeReader) (more : List Token) (fuel : Nat), 2 * ts.length ≤ fuel →
    read fuel { reader with tokens := ts ++ more } = some (a, { reader with tokens := more })

section Steps

variable {reader : NodeReader} {more : List Token} {t : Token}

theorem bind_eq {α β : Type} {m : Read α} {f : α → Read β} {s s' : NodeReader} {a : α}
    (h : m s = some (a, s')) : (m >>= f) s = f a s' := by
  simp [bind, StateT.bind, h]

theorem pure_eq {α : Type} (a : α) (s : NodeReader) : (pure a : Read α) s = some (a, s) := rfl

theorem peek_cons : peek { reader with tokens := t :: more } =
    some (some t, { reader with tokens := t :: more }) := rfl

theorem accept_cons {u : Token} : accept u { reader with tokens := t :: more } =
    some (decide (t = u), { reader with tokens := if t = u then more else t :: more }) := by
  rw [accept, bind_eq peek_cons]
  by_cases h : t = u
  · simp [h, skip, bind, StateT.bind, pure_eq]
  · simp [h, pure_eq]

theorem expect_cons : expect t { reader with tokens := t :: more } =
    some ((), { reader with tokens := more }) := by
  rw [expect, bind_eq accept_cons]
  simp [pure_eq]

theorem ahead_cons (ts : List Token) : ahead ts { reader with tokens := t :: more } =
    some (decide (t ∈ ts), { reader with tokens := t :: more }) := by
  rw [ahead, bind_eq peek_cons]
  simp [pure_eq]

end Steps

variable {t : Token} {ts : List Token} {v : Node} {entries : List (Node × Node)}

theorem makes_word (block indentless : Bool) (text : String) :
    Makes (node · block indentless) [word text] (wordNode text) := by
  intro reader more fuel hfuel
  obtain _ | fuel := fuel
  · simp at hfuel
  · simp [node, word, wordNode, peek, skip, properties, attach, bind, StateT.bind, pure_eq]

theorem makes_mapping (indentless : Bool) (h : Makes blockEntries ts entries) :
    Makes (node · true indentless) (.blockMappingStart :: ts) (.mapping entries) := by
  intro reader more fuel hfuel
  obtain _ | fuel := fuel
  · simp at hfuel
  · rw [List.length_cons] at hfuel
    have hentries := h reader more fuel (by omega)
    simp [node, peek, skip, properties, attach, bind, StateT.bind, pure_eq, Functor.map,
      StateT.map, hentries]

theorem makes_nodeUnless {ends : List Token} {block indentless : Bool}
    (h : Makes (node · block indentless) (t :: ts) v) (hhead : t ∉ ends) :
    Makes (fun fuel => nodeUnless (fuel + 1) ends block indentless) (t :: ts) v := by
  intro reader more fuel hfuel
  show nodeUnless (fuel + 1) ends block indentless { reader with tokens := t :: (ts ++ more) } = _
  rw [nodeUnless, bind_eq (ahead_cons ends)]
  simp only [hhead, decide_false, Bool.false_eq_true, if_false]
  exact h reader more fuel hfuel

theorem makes_entries_nil : Makes blockEntries [.blockEnd] [] := by
  intro reader more fuel hfuel
  obtain _ | fuel := fuel
  · simp at hfuel
  · show blockEntries (fuel + 1) { reader with tokens := .blockEnd :: more } = _
    rw [blockEntries, bind_eq accept_cons]
    simp [pure_eq]

theorem word_notMem_marks (text : String) : word text ∉ [Token.key, .value, .blockEnd] := by
  simp [word]

theorem makes_entries_cons {k : String} (vts : List Token)
    (hv : Makes (node · true true) (t :: vts) v) (hhead : t ∉ [Token.key, .value, .blockEnd])
    (h : Makes blockEntries ts entries) :
    Makes blockEntries (.key :: word k :: .value :: t :: vts ++ ts)
      ((wordNode k, v) :: entries) := by
  intro reader more fuel hfuel
  simp only [List.length_append, List.length_cons] at hfuel
  obtain ⟨fuel, rfl⟩ : ∃ m, fuel = m + 2 := ⟨fuel - 2, by omega⟩
  have hkey := makes_nodeUnless (makes_word true true k) (word_notMem_marks k) reader
    (.value :: t :: (vts ++ (ts ++ more))) fuel (by simp; omega)
  have hvalue := makes_nodeUnless hv hhead reader (ts ++ more) fuel (by simp; omega)
  have hrest := h reader more (fuel + 1) (by omega)
  have htokens : (.key :: word k :: .value :: t :: vts ++ ts) ++ more =
      .key :: word k :: .value :: t :: (vts ++ (ts ++ more)) := by simp
  rw [htokens, blockEntries, bind_eq accept_cons]
  simp only [reduceCtorEq, decide_false, Bool.false_eq_true, if_false]
  rw [bind_eq expect_cons]
  refine (bind_eq hkey).trans ?_
  rw [bind_eq accept_cons]
  simp only [decide_true, if_true]
  refine (bind_eq hvalue).trans ?_
  exact (bind_eq hrest).trans rfl

theorem makes_fields (fs : List (String × String)) :
    Makes blockEntries (fs.flatMap fieldTokens ++ [.blockEnd])
      (fs.map fun f => (wordNode f.1, wordNode f.2)) := by
  induction fs with
  | nil => exact makes_entries_nil
  | cons f fs ih =>
    exact makes_entries_cons [] (makes_word true true f.2) (word_notMem_marks f.2) ih

theorem makes_sections (ss : List Section) :
    Makes blockEntries (ss.flatMap Section.tokens ++ [.blockEnd]) (ss.map Section.node) := by
  induction ss with
  | nil => exact makes_entries_nil
  | cons s ss ih =>
    have hfields := makes_mapping true (makes_fields s.fields)
    simpa [Section.tokens, Section.node] using makes_entries_cons _ hfields (by simp) ih

end NodeReader

theorem documentOfTokens_mapping {ts : List Token} {entries : List (Node × Node)}
    (h : NodeReader.Makes NodeReader.blockEntries ts entries) :
    documentOfTokens (.blockMappingStart :: ts) = .ok (some { root := .mapping entries }) := by
  have hstart : NodeReader.start? (.blockMappingStart :: ts) =
      some { tokens := .blockMappingStart :: ts, handles := NodeReader.standardHandles } := rfl
  have hroot := NodeReader.makes_mapping false h
    { tokens := [], handles := NodeReader.standardHandles } [] (4 * (ts.length + 1) + 4)
    (by simp; omega)
  rw [List.append_nil] at hroot
  simp [documentOfTokens, hstart, NodeReader.root, hroot, closes]

/-- A text of sections is read as what it shows. -/
theorem document_sections {ss : List Section} (h : ∀ s ∈ ss, s.Plain) (hne : ss ≠ []) :
    document (String.ofList (ss.flatMap Section.chars)) =
      .ok (some { root := .mapping (ss.map Section.node) }) := by
  have hprintable : (ss.flatMap Section.chars).all isPrintable = true :=
    List.all_eq_true.2
      (forall_mem_chars h (fun c hc => isPrintable_of_isPlainChar hc) (by decide))
  rw [document, String.toList_ofList, hprintable, tokens_sections h hne]
  exact documentOfTokens_mapping (NodeReader.makes_sections ss)

/-! ## Values -/

theorem plain_natural (n : Nat) : Plain n.repr where
  nonempty := by
    rw [Nat.toList_repr]
    exact Nat.toDigits_ne_nil
  chars c hc := by
    rw [Nat.toList_repr] at hc
    simp [isPlainChar, Text.isDigit_toDigits hc]

theorem plain_boolean (b : Bool) : Plain (toString b) := by
  cases b with
  | false => exact (by decide : Key "false").toPlain
  | true => exact (by decide : Key "true").toPlain

/-- Only the number zero begins with a zero. -/
theorem head?_toDigits {n : Nat} (h : n ≠ 0) : (Nat.toDigits 10 n).head? ≠ some '0' := by
  induction n using Nat.strong_induction_on with
  | _ n ih =>
    rw [Nat.toDigits_eq_if (by decide)]
    split
    case isTrue hsmall =>
      have hdigit : ∀ n < 10, n ≠ 0 → n.digitChar ≠ '0' := by decide
      simpa using hdigit n hsmall h
    case isFalse hlarge =>
      rw [List.head?_append_of_ne_nil _ Nat.toDigits_ne_nil]
      exact ih _ (by omega) (by omega)

namespace Document

theorem naturalChars?_toDigits (n : Nat) : naturalChars? (Nat.toDigits 10 n) = some n := by
  obtain rfl | hn := Decidable.em (n = 0)
  · decide
  · have hhead := head?_toDigits hn
    have hdigits : Text.digits? 10 0 (Nat.toDigits 10 n) = some n :=
      Text.digits?_toDigits (by decide) (by decide) n
    obtain ⟨c, rest, heq⟩ := List.exists_cons_of_ne_nil (Nat.toDigits_ne_nil (b := 10) (n := n))
    rw [heq] at hhead hdigits ⊢
    have hc : c ≠ '0' := by simpa using hhead
    unfold naturalChars?
    split
    all_goals first | exact hdigits | exact absurd (List.cons.inj ‹_›).1 hc

variable {d : Document}

theorem natural_word {n bound : Nat} (h : n < bound) :
    d.natural bound (wordNode n.repr) = .ok n := by
  -- without this the reader is not seen to pass by its case for a sign
  have hsign : ∀ rest, Nat.toDigits 10 n ≠ '+' :: rest := fun rest heq =>
    absurd (Text.isDigit_toDigits (n := n) (c := '+') (by simp [heq])) (by decide)
  have hvalue : d.valueText? "tag:yaml.org,2002:int" (wordNode n.repr) = some n.repr := by
    simp [valueText?, wordNode, resolve]
  simp only [natural, hvalue, Option.bind_some, Nat.toList_repr]
  rw [naturalChars?_toDigits, Option.filter_some_pos (by simpa using h)]

theorem boolean_word (b : Bool) : d.boolean (wordNode (toString b)) = .ok b := by
  cases b <;> simp [boolean, wordNode, valueText?, resolve, toString]

theorem lt_of_natural {d : Document} {n : Node} {bound k : Nat} (h : d.natural bound n = .ok k) :
    k < bound := by
  simp only [natural] at h
  split at h
  case h_1 hfound =>
    cases h
    simpa using (Option.filter_eq_some_iff.1 hfound).2
  case h_2 => cases h

/-- What holds of the default and of whatever can be read holds of the field. -/
theorem of_field {α : Type} {p : α → Prop} {found : List (String × Node)} {name : String}
    {fallback a : α} {read : Node → Except ValueError α} (hfallback : p fallback)
    (hread : ∀ {n a}, read n = .ok a → p a) (h : field found name fallback read = .ok a) : p a := by
  unfold field at h
  split at h
  · cases h
    exact hfallback
  · exact hread h

theorem go_words {names : List String} {entries : List (String × Node)}
    (found : List (String × Node)) (h : ∀ e ∈ entries, e.1 ∈ names)
    (hdistinct : ((entries ++ found).map Prod.fst).Nodup) :
    fields.go names d found (entries.map fun e => (wordNode e.1, e.2)) =
      .ok (entries.reverse ++ found) := by
  induction entries generalizing found with
  | nil => rfl
  | cons e entries ih =>
    have hmoved : (entries ++ e :: found).Perm (e :: (entries ++ found)) := List.perm_middle
    have hrest := ih (e :: found) (fun e he => h e (List.mem_cons_of_mem _ he))
      ((hmoved.map Prod.fst).nodup_iff.2 hdistinct)
    have hnew : found.lookup e.1 = none := by
      simp only [List.cons_append, List.map_cons, List.nodup_cons] at hdistinct
      rw [List.lookup_eq_none_iff]
      intro p hp
      rw [bne_iff_ne]
      exact fun heq => hdistinct.1 (List.mem_map.2 ⟨p, by simp [hp], heq.symm⟩)
    have hname := h e (by simp)
    rw [List.map_cons, List.reverse_cons, List.append_assoc, List.singleton_append, ← hrest]
    simp [fields.go, wordNode, resolve, hname, hnew]

/-- The entries of a mapping are found by their names, the last one first. -/
theorem fields_words (entries : List (String × Node)) (hdistinct : (entries.map Prod.fst).Nodup) :
    d.fields (entries.map Prod.fst) (.mapping (entries.map fun e => (wordNode e.1, e.2))) =
      .ok entries.reverse := by
  have hgo := go_words (d := d) [] (fun e he => List.mem_map_of_mem he)
    (by simpa using hdistinct)
  simpa [fields, resolve] using hgo

end Document

theorem Section.fields_node (s : Section) (d : Document)
    (hdistinct : (s.fields.map Prod.fst).Nodup) : d.fields (s.fields.map Prod.fst) s.node.2 =
      .ok (s.fields.map fun f => (f.1, wordNode f.2)).reverse := by
  have hnames : (s.fields.map fun f => (f.1, wordNode f.2)).map Prod.fst =
      s.fields.map Prod.fst := by
    rw [List.map_map]
    rfl
  have hfields := Document.fields_words (d := d) _ (hnames ▸ hdistinct)
  rw [hnames, List.map_map] at hfields
  exact hfields

end RailBus.Yaml
