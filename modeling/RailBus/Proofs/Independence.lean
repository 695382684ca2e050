import RailBus.Proofs.Stall

/-!
# Operations that do not feel each other

An operation on the node table acts within a part of the network: one node, or a node with all that
lies below it. It leaves the rest as it is, also what an unknown node there would inherit, and
depends on nothing there (`Within`). So two operations that act within separate parts may be
exchanged (`independent_of_separate`), although entries are made on first use and take over a stall
from above.
-/

namespace RailBus

namespace NodeTable

variable {t t' : NodeTable} {a b : Address} {n : Node} {β γ : Type}

/-! ## What an unknown node inherits -/

theorem isStalled_congr (h : t'.nodes.find? a = t.nodes.find? a) :
    t'.isStalled a = t.isStalled a := by
  rw [isStalled, h, isStalled]

theorem inheritsStall_congr (h : ∀ x, x.isAncestorOf b = true → t'.isStalled x = t.isStalled x) :
    t'.inheritsStall b = t.inheritsStall b := by
  rw [Bool.eq_iff_iff, inheritsStall_iff, inheritsStall_iff]
  constructor
  · rintro ⟨x, hx, hxb⟩
    exact ⟨x, (h x hxb).symm.trans hx, hxb⟩
  · rintro ⟨x, hx, hxb⟩
    exact ⟨x, (h x hxb).trans hx, hxb⟩

theorem isStalled_put (t : NodeTable) (a x : Address) (n : Node) :
    (t.put a n).isStalled x = if x = a then n.stalled else t.isStalled x := by
  rw [isStalled, find?_put]
  split <;> rfl

/-- An entry that is made takes over a stall from above, so those below it inherit nothing new. -/
theorem inheritsStall_put (h : n.stalled = (t.node a).stalled) (b : Address) :
    (t.put a n).inheritsStall b = t.inheritsStall b := by
  rw [Bool.eq_iff_iff, inheritsStall_iff, inheritsStall_iff]
  constructor
  · rintro ⟨x, hx, hxb⟩
    rw [isStalled_put] at hx
    split at hx
    case isTrue hxa =>
      subst hxa
      exact exists_stalled_above (h.symm.trans hx) hxb
    case isFalse => exact ⟨x, hx, hxb⟩
  · rintro ⟨x, hx, hxb⟩
    refine ⟨x, ?_, hxb⟩
    rw [isStalled_put]
    split
    case isTrue hxa =>
      subst hxa
      obtain ⟨n', hn', hstalled⟩ := isStalled_iff.1 hx
      rw [h, node_of_find? hn', hstalled]
    case isFalse => exact hx

/-! ## Acting within a part of the network -/

/-- What every table is given when it is made. -/
def settings (t : NodeTable) : UInt8 × Bool := (t.defaultCredit, t.honorReports)

/-- Nothing tells the tables apart at `b`, neither what is known of the node nor what its entry
would be. -/
structure SameAt (t t' : NodeTable) (b : Address) : Prop where
  known : t'.nodes.find? b = t.nodes.find? b
  node : t'.node b = t.node b

theorem ext (hsettings : t'.settings = t.settings)
    (h : ∀ b, t'.nodes.find? b = t.nodes.find? b) : t' = t := by
  have hnodes : t'.nodes = t.nodes := AddressMap.ext_find? h
  cases t
  cases t'
  cases hsettings
  cases hnodes
  rfl

theorem sameAt_of_unknown (hsettings : t'.settings = t.settings)
    (hknown : t'.nodes.find? b = t.nodes.find? b)
    (h : t.nodes.find? b = none → t'.inheritsStall b = t.inheritsStall b) : t.SameAt t' b := by
  refine ⟨hknown, ?_⟩
  have hcredit : t'.defaultCredit = t.defaultCredit := congrArg Prod.fst hsettings
  cases hfind : t.nodes.find? b with
  | none => simp only [node, hknown, hfind, hcredit, h hfind]
  | some n => rw [node_of_find? hfind, node_of_find? (hknown.trans hfind)]

/-- An operation acts within `part`. The rest it leaves as it is, and what it answers and makes of
`part` depends on nothing else. -/
structure Within (part : Address → Prop) (f : NodeTable → NodeTable × β) : Prop where
  settings : ∀ t, (f t).1.settings = t.settings
  outside : ∀ (t : NodeTable) b, ¬ part b → t.SameAt (f t).1 b
  answer : ∀ t t' : NodeTable, t'.settings = t.settings → (∀ b, part b → t.SameAt t' b) →
    (f t').2 = (f t).2
  inside : ∀ t t' : NodeTable, t'.settings = t.settings → (∀ b, part b → t.SameAt t' b) →
    ∀ b, part b → (f t').1.nodes.find? b = (f t).1.nodes.find? b

/-- In either order both operations answer the same, and the same table is left. -/
structure Independent (t : NodeTable) (f : NodeTable → NodeTable × β)
    (g : NodeTable → NodeTable × γ) : Prop where
  first : (f (g t).1).2 = (f t).2
  second : (g (f t).1).2 = (g t).2
  table : (g (f t).1).1 = (f (g t).1).1

theorem independent_of_separate {part part' : Address → Prop} {f : NodeTable → NodeTable × β}
    {g : NodeTable → NodeTable × γ} (hf : Within part f) (hg : Within part' g)
    (h : ∀ b, part b → ¬ part' b) (t : NodeTable) : t.Independent f g := by
  have hseen : ∀ b, part b → t.SameAt (g t).1 b := fun b hb => hg.outside t b (h b hb)
  have hseen' : ∀ b, part' b → t.SameAt (f t).1 b := fun b hb' =>
    hf.outside t b fun hb => h b hb hb'
  refine ⟨hf.answer _ _ (hg.settings t) hseen, hg.answer _ _ (hf.settings t) hseen', ?_⟩
  apply ext
  · rw [hg.settings, hf.settings, hf.settings, hg.settings]
  intro b
  by_cases hb : part b
  · rw [(hg.outside _ b (h b hb)).known, hf.inside _ _ (hg.settings t) hseen b hb]
  · rw [(hf.outside _ b hb).known]
    by_cases hb' : part' b
    · rw [hg.inside _ _ (hf.settings t) hseen' b hb']
    · rw [(hg.outside _ b hb').known, (hg.outside _ b hb').known, (hf.outside _ b hb).known]

/-! ## One node -/

/-- What is done to the entry of one node. -/
inductive Operation
  | nextNumber
  | reserve (consumes : Bool)
  | enqueue (r : Request)
  | await (o : Outstanding)
  | release
  | observe (seq : UInt8)
  | learn (bytes : UInt8)

/-- What an operation answers. -/
def Operation.Answer : Operation → Type
  | .nextNumber => UInt8
  | .reserve _ => Bool
  | .enqueue _ | .await _ => Unit
  | .release => Option ActionId × List Request
  | .observe _ => SeqCheck
  | .learn _ => List Request

def perform (a : Address) : (o : Operation) → NodeTable → NodeTable × o.Answer
  | .nextNumber, t => t.nextNumber a
  | .reserve consumes, t => t.reserve a consumes
  | .enqueue r, t => (t.enqueue a r, ())
  | .await o, t => (t.await a o, ())
  | .release, t => t.release a
  | .observe seq, t => t.observe a seq
  | .learn bytes, t => t.learn a bytes

/-- A change of one entry that leaves its stall flag alone acts within its node. -/
theorem within_update (a : Address) {f : Node → Node × β}
    (hf : ∀ n, (f n).1.stalled = n.stalled) : Within (· = a) (·.update a f) := by
  constructor
  · intro t
    rfl
  · intro t b hb
    have hsettings : (t.update a f).1.settings = t.settings := rfl
    apply sameAt_of_unknown hsettings
    · rw [update_eq_put, find?_put, if_neg hb]
    · intro _
      exact inheritsStall_put (hf _) b
  · intro t t' _ h
    simp only [update_eq_put, (h a rfl).node]
  · rintro t t' _ h b rfl
    simp only [update_eq_put, find?_put, (h b rfl).node, if_true]

theorem within_id (part : Address → Prop) (answer : β) :
    Within part (fun t => (t, answer)) := by
  constructor
  · intro t
    rfl
  · intro t b _
    exact ⟨rfl, rfl⟩
  · intro t t' _ _
    rfl
  · intro t t' _ h b hb
    exact (h b hb).known

theorem stalled_drain (n : Node) : n.drain.1.stalled = n.stalled := by
  unfold Node.drain
  split <;> rfl

/-- A report acts or does not act by the settings, which never change. -/
theorem within_learn (a : Address) (bytes : UInt8) : Within (· = a) (·.learn a bytes) := by
  have hupdate : Within (· = a) (·.update a (·.learn bytes)) :=
    within_update a fun n => stalled_drain _
  have hid : Within (· = a) (fun t => (t, ([] : List Request))) := within_id _ _
  have hhonors : ∀ {t t' : NodeTable}, t'.settings = t.settings →
      t'.honorReports = t.honorReports := congrArg Prod.snd
  constructor
  · intro t
    simp only [learn]
    split
    · exact hupdate.settings t
    · rfl
  · intro t b hb
    simp only [learn]
    split
    · exact hupdate.outside t b hb
    · exact hid.outside t b hb
  · intro t t' hsettings h
    simp only [learn, hhonors hsettings]
    split
    · exact hupdate.answer t t' hsettings h
    · rfl
  · intro t t' hsettings h b hb
    simp only [learn, hhonors hsettings]
    split
    · exact hupdate.inside t t' hsettings h b hb
    · exact hid.inside t t' hsettings h b hb

theorem within_perform (a : Address) (o : Operation) : Within (· = a) (perform a o) := by
  cases o with
  | nextNumber => exact within_update a (f := Node.nextNumber) fun _ => rfl
  | reserve consumes =>
    apply within_update a (f := (·.reserve consumes))
    intro n
    obtain ⟨h, -⟩ | ⟨h, -⟩ := n.reserve_cases consumes <;> rw [h]
  | enqueue r => exact within_update a (f := fun n => (n.enqueue r, ())) fun _ => rfl
  | await o => exact within_update a (f := fun n => (n.await o, ())) fun _ => rfl
  | release => exact within_update a (f := Node.release) fun _ => stalled_drain _
  | observe seq =>
    apply within_update a (f := (·.observe seq))
    intro n
    unfold Node.observe
    split <;> rfl
  | learn bytes => exact within_learn a bytes

/-! ## A node and all below it -/

theorem find?_setStall_below (t : NodeTable) (on : Bool) (h : a.isPrefixOf b) :
    (t.setStall a on).1.nodes.find? b =
      ((t.nodes.insert a (t.node a)).find? b).map fun n => (n.setStall on).1 := by
  simp only [setStall, AddressMap.find?_map, h, if_true]

theorem find?_setStall_elsewhere (t : NodeTable) (on : Bool) (h : ¬ a.isPrefixOf b) :
    (t.setStall a on).1.nodes.find? b = t.nodes.find? b := by
  have hne : b ≠ a := by
    rintro rfl
    exact h b.isPrefixOf_self
  simp [setStall, AddressMap.find?_map, AddressMap.find?_insert, h, hne]

/-- What is let go comes from the entries at the node and below it. -/
theorem released_setStall (t : NodeTable) (a : Address) (on : Bool) :
    (t.setStall a on).2 =
      ((t.nodes.insert a (t.node a)).entries.filter fun x => a.isPrefixOf x.1).flatMap
        fun (b, n) => (n.setStall on).2.map (b, ·) := by
  simp only [setStall]
  generalize (t.nodes.insert a (t.node a)).entries = l
  induction l with
  | nil => rfl
  | cons x rest ih =>
    by_cases hx : a.isPrefixOf x.1 = true <;> simp [hx, ih]

theorem within_setStall (a : Address) (on : Bool) :
    Within (fun b => a.isPrefixOf b) (·.setStall a on) := by
  have hinsert : ∀ {t t' : NodeTable}, (∀ b, a.isPrefixOf b → t.SameAt t' b) →
      ∀ b, a.isPrefixOf b →
        (t'.nodes.insert a (t'.node a)).find? b = (t.nodes.insert a (t.node a)).find? b := by
    intro t t' h b hb
    rw [AddressMap.find?_insert, AddressMap.find?_insert, (h a a.isPrefixOf_self).node,
      (h b hb).known]
  constructor
  · intro t
    rfl
  · intro t b hb
    have hsettings : (t.setStall a on).1.settings = t.settings := rfl
    apply sameAt_of_unknown hsettings
    · exact find?_setStall_elsewhere t on hb
    · intro _
      apply inheritsStall_congr
      intro x hxb
      apply isStalled_congr
      apply find?_setStall_elsewhere t on
      intro hax
      exact hb (Address.isPrefixOf_trans hax (Address.isPrefixOf_of_isAncestorOf hxb))
  · intro t t' _ h
    show (t'.setStall a on).2 = (t.setStall a on).2
    rw [released_setStall, released_setStall, AddressMap.filter_entries_congr _ (hinsert h)]
  · intro t t' _ h b hb
    show (t'.setStall a on).1.nodes.find? b = (t.setStall a on).1.nodes.find? b
    rw [find?_setStall_below t' on hb, find?_setStall_below t on hb, hinsert h b hb]

/-- **Operations on separate parts of the network may be exchanged.** Whatever is done to the
entries of two different nodes, be they known or not and whether one lies below the other or not,
both are answered the same in either order, and the same table is left. So it is with a stall and
anything that is done to a node that does not lie below its sender, and with the stalls of two nodes
of which neither lies below the other. -/
theorem perform_comm (t : NodeTable) :
    (∀ a b (o o' : Operation), a ≠ b → t.Independent (perform a o) (perform b o')) ∧
      (∀ a on b (o : Operation), ¬ a.isPrefixOf b →
        t.Independent (·.setStall a on) (perform b o)) ∧
      ∀ a on b on', ¬ a.isPrefixOf b → ¬ b.isPrefixOf a →
        t.Independent (·.setStall a on) (·.setStall b on') := by
  refine ⟨?_, ?_, ?_⟩
  · intro a b o o' hne
    apply independent_of_separate (within_perform a o) (within_perform b o')
    rintro x rfl
    exact hne
  · intro a on b o hprefix
    apply independent_of_separate (within_setStall a on) (within_perform b o)
    rintro x hx rfl
    exact hprefix hx
  · intro a on b on' hab hba
    apply independent_of_separate (within_setStall a on) (within_setStall b on')
    intro x hax hbx
    exact (Address.isPrefixOf_or_isPrefixOf hax hbx).elim hab hba

/-- The child is stalled with a command waiting for it. Nothing is known below it. -/
def childHeldBack : NodeTable :=
  ((NodeTable.new 4 true).setStall Link.child true).1.enqueue Link.child Link.command

/-- The grandchild gets its entry, which is stalled, before or after its parent answers. It is let
go before or after its parent tells how much it can buffer, and so is the child before or after its
neighbour stops itself. -/
theorem grandchild_entered_either_way :
    let neighbour : Address := ⟨[2], by decide, by simp⟩
    Link.child ≠ Link.grandchild ∧
      childHeldBack.Independent (perform Link.child .release)
        (perform Link.grandchild (.reserve true)) ∧
      (perform Link.grandchild (.reserve true) childHeldBack).1.isStalled Link.grandchild = true ∧
      ¬ Link.grandchild.isPrefixOf Link.child ∧
      childHeldBack.Independent (·.setStall Link.grandchild false)
        (perform Link.child (.learn 8)) ∧
      ¬ Link.child.isPrefixOf neighbour ∧ ¬ neighbour.isPrefixOf Link.child ∧
      childHeldBack.Independent (·.setStall Link.child false) (·.setStall neighbour true) ∧
      (childHeldBack.setStall Link.child false).2 = [(Link.child, Link.command)] := by
  intro neighbour
  obtain ⟨hnodes, hstall, hstalls⟩ := perform_comm childHeldBack
  have hne : Link.child ≠ Link.grandchild := by decide
  have hbelow : ¬ Link.grandchild.isPrefixOf Link.child := by decide
  have haside : ¬ Link.child.isPrefixOf neighbour := by decide
  have haside' : ¬ neighbour.isPrefixOf Link.child := by decide
  exact ⟨hne, hnodes _ _ .release (.reserve true) hne, by decide +kernel, hbelow,
    hstall _ false _ (.learn 8) hbelow, haside, haside', hstalls _ false _ true haside haside',
    by decide +kernel⟩

end NodeTable
end RailBus
