import Cardplay.Proofs.Shape.Address
import Mathlib.Algebra.Order.Ring.Nat

/-!
# Walks as codes of shapes

The depths and labels that a walk lists are the preorder of the tree of kinds, so they determine it
(`Effect.shape?_of_outline`), and the counts are those of its nodes. That the walk answers at all takes more than a
kind at every node: what carries the kind of a combinator without being one has no parts to go on to
(`Effect.walk_partless`). Elsewhere the walk is a faithful code of the static tree (`Effect.walk_encodes`).
-/

set_option autoImplicit false

namespace Cardplay

namespace OrderedMap

theorem sum_put (key : String) (entries : List (String × Nat)) :
    ((Entries.put key ((Entries.find? key entries).getD 0 + 1) entries).map Prod.snd).sum =
      (entries.map Prod.snd).sum + 1 := by
  induction entries with
  | nil => rfl
  | cons entry rest ih =>
    by_cases h : entry.1 = key
    · simp [Entries.put, Entries.find?, h]
      omega
    · simp [Entries.put, Entries.find?, h, ih]
      omega

end OrderedMap

namespace Effect
variable {e : Effect} {d : Nat} {nodes : List (Nat × Effect)}

mutual

/-- The tree of kinds, where every node carries one. -/
def shape? : Effect → Option Shape
  | leaf l => some (.node l.kind [])
  | custom l => (EffectKind.ofName? l.label).map fun kind => .node kind []
  | composite children => (shapes? children).map (.node .composite)
  | sequential children => (shapes? children).map (.node .sequential)
  | parallel children => (shapes? children).map (.node .parallel)
  | chained first _ => first.shape?.map fun s => .node .chained [s]
  | conditional child _ => child.shape?.map fun s => .node .conditional [s]
  | repeated child _ => child.shape?.map fun s => .node .repeated [s]
  | contextual child _ _ => child.shape?.map fun s => .node .contextual [s]

def shapes? : List Effect → Option (List Shape)
  | [] => some []
  | e :: rest => e.shape?.bind fun s => (shapes? rest).map (s :: ·)

end

theorem shape?_eq (e : Effect) :
    e.shape? = e.carried?.bind fun kind => (shapes? e.offspring).map (.node kind) := by
  have hsingle (kind : EffectKind) (child : Effect) :
      child.shape?.map (fun s => Shape.node kind [s]) = (shapes? [child]).map (.node kind) := by
    cases hchild : child.shape? <;> simp [shapes?, hchild]
  cases e with
  | leaf l => rfl
  | custom l => exact Option.map_eq_bind
  | composite children => rfl
  | sequential children => rfl
  | parallel children => rfl
  | chained first next => exact hsingle .chained first
  | conditional child holds => exact hsingle .conditional child
  | repeated child times => exact hsingle .repeated child
  | contextual child key value => exact hsingle .contextual child

/-- The depths and labels of the nodes that a walk lists. -/
def outline (nodes : List (Nat × Effect)) : List (Nat × String) := nodes.map fun node => (node.1, node.2.label)

/-- The preorder with the names of the kinds. -/
def named (entry : Nat × EffectKind) : Nat × String := (entry.1, entry.2.name)

theorem named_injective : Function.Injective named := by
  intro a b h
  obtain ⟨hd, hname⟩ := Prod.mk.inj h
  exact Prod.ext hd (EffectKind.name_injective hname)

theorem outline_of_walk (h : e.walkFrom d = .ok nodes) :
    ∃ s, e.shape? = some s ∧ outline nodes = (s.preorder d).map named := by
  refine walk_induction (P := fun d e nodes => ∃ s, e.shape? = some s ∧ outline nodes = (s.preorder d).map named)
    (Q := fun d cs later => ∃ below, shapes? cs = some below ∧
      outline later = (Shape.preorderAll (d + 1) below).map named) ?nil ?cons ?node h
  case nil => exact fun d => ⟨[], rfl, rfl⟩
  case cons =>
    rintro d e rest first later ⟨s, hs, hfirst⟩ ⟨below, hbelow, hlater⟩
    refine ⟨s :: below, by simp [shapes?, hs, hbelow], ?_⟩
    rw [Shape.preorderAll, List.map_append, ← hfirst, ← hlater, outline, List.map_append]
    rfl
  case node =>
    rintro d e later hne ⟨below, hbelow, hlater⟩
    obtain ⟨kind, hkind⟩ := Option.ne_none_iff_exists'.mp hne
    refine ⟨.node kind below, by simp [shape?_eq, hkind, hbelow], ?_⟩
    rw [Shape.preorder, List.map_cons, ← hlater, named, ← label_of_carried? hkind]
    rfl

/-- A walk begins at the given depth and goes on below it, down by one at most. -/
theorem depths_of_walk (h : e.walkFrom d = .ok nodes) :
    (∃ later, nodes.map Prod.fst = d :: later ∧ ∀ n ∈ later, d + 1 ≤ n) ∧
    (nodes.map Prod.fst).IsChain fun m n => n ≤ m + 1 := by
  obtain ⟨s, _, houtline⟩ := outline_of_walk h
  have hdepths : nodes.map Prod.fst = (s.preorder d).map Prod.fst := by
    have hfst := congrArg (List.map Prod.fst) houtline
    simpa [outline, named, Function.comp_def] using hfst
  rw [hdepths]
  exact ⟨s.exists_deeper d, (s.deep_preorder d).chain⟩

/-- Two walks with the same depths and labels are of trees with the same shape. -/
theorem shape?_of_outline {e' : Effect} {d' : Nat} {nodes' : List (Nat × Effect)} (h : e.walkFrom d = .ok nodes)
    (h' : e'.walkFrom d' = .ok nodes') (heq : outline nodes' = outline nodes) : e'.shape? = e.shape? := by
  obtain ⟨s, hs, houtline⟩ := outline_of_walk h
  obtain ⟨s', hs', houtline'⟩ := outline_of_walk h'
  rw [houtline, houtline'] at heq
  obtain ⟨rfl, _⟩ := Shape.preorder_injective (List.map_injective_iff.mpr named_injective heq)
  rw [hs, hs']

theorem sum_countLabels (counts : OrderedMap Nat) (labels : List String) :
    (countLabels counts labels).values.sum = counts.values.sum + labels.length := by
  induction labels generalizing counts with
  | nil => rfl
  | cons label rest ih =>
    have hone : (counts.insert label ((counts.get? label).getD 0 + 1)).values.sum = counts.values.sum + 1 :=
      OrderedMap.sum_put label counts.entries
    rw [countLabels, ih, hone, List.length_cons]
    omega

theorem countKinds_of_walk (h : e.walkFrom 0 = .ok nodes) :
    e.countKinds = .ok (countLabels .empty (nodes.map fun node => node.2.label)) := by
  simp only [countKinds, Effect.walk, h]
  rfl

theorem labels_of_walk {s : Shape} (h : e.walkFrom d = .ok nodes) (hs : e.shape? = some s) :
    (nodes.map fun node => node.2.label) = ((s.preorder d).map Prod.snd).map EffectKind.name := by
  obtain ⟨s', hs', houtline⟩ := outline_of_walk h
  obtain rfl := Option.some.inj (hs'.symm.trans hs)
  have hsnd := congrArg (List.map Prod.snd) houtline
  simpa [outline, named, Function.comp_def] using hsnd

theorem count_labels {occurrences : List (List Nat × Effect)} (h : Enumerates occurrences e)
    (hkind : e.Everywhere fun x => x.carried? ≠ none) (d : Nat) (kind : EffectKind) :
    ((occurrences.map (placed d)).map fun node => node.2.label).count kind.name =
      occurrences.countP fun o => o.2.carried? = some kind := by
  rw [List.map_map, List.count, List.countP_map]
  refine List.countP_congr fun o ho => ?_
  have hlabel : o.2.label = kind.name ↔ o.2.carried? = some kind :=
    label_eq_iff (hkind o.1 o.2 ((h.mem_iff o.1 o.2).mp ho))
  simpa [placed] using hlabel

end Effect

namespace Duel

/-- It carries the kind of a composite, and has no parts. -/
def hollow : CustomLeaf where
  label := "composite"
  type := ⟨"duel", "Hollow"⟩
  description := "hollow"
  behaviour := fun c => return .ok c.state []

/-- It carries the kind of a leaf, as any effect without parts may. -/
def token : CustomLeaf := { hollow with label := "resource", description := "token" }

/-- The token stands in it at two addresses; what is chosen later stands nowhere. -/
def thicket : Effect := .parallel [.custom token, .chained (.custom token) fun _ g => .ok (.custom hollow) g]

theorem thicket_everywhere {q : Effect → Prop} (hparallel : q thicket) (htoken : q (.custom token))
    (hchained : ∀ next, q (.chained (.custom token) next)) : thicket.Everywhere q := by
  have hleaf : (Effect.custom token).Everywhere q := Effect.everywhere_iff.mpr ⟨htoken, nofun⟩
  have hchain (next : Result → Generator → EStateM.Result Error Generator Effect) :
      (Effect.chained (.custom token) next).Everywhere q :=
    Effect.everywhere_iff.mpr ⟨hchained next, List.forall_mem_singleton.mpr hleaf⟩
  exact Effect.everywhere_iff.mpr
    ⟨hparallel, List.forall_mem_cons.mpr ⟨hleaf, List.forall_mem_singleton.mpr (hchain _)⟩⟩

theorem thicket_genuine : thicket.Everywhere Effect.Genuine := by
  refine thicket_everywhere (fun _ h _ => h) (fun kind h hpart => ?_) fun _ _ h _ => h
  obtain rfl : EffectKind.resource = kind := Option.some.inj (.trans (by decide +kernel) h)
  exact absurd rfl hpart

end Duel

namespace Effect
variable {e : Effect}

/-- A node that carries the kind of a combinator without its parts makes the walk raise, and the counts with it. -/
theorem walk_partless : ((custom Duel.hollow).Everywhere fun x => x.carried? ≠ none) ∧
    (∀ d, (custom Duel.hollow).walkFrom d = .error (.partless "Hollow" "effects")) ∧
    (custom Duel.hollow).countKinds = .error (.partless "Hollow" "effects") := by
  refine ⟨everywhere_iff.mpr ⟨by decide +kernel, nofun⟩, fun d => rfl, rfl⟩

/-- Where every node carries a kind, and the kind of a combinator only as that combinator, the walk lists every
occurrence of a node once, in the order of the addresses and with the length of its address as depth below the
given one. It begins at that depth, all else is deeper, and no step goes down by more than one. Whatever tree has
a walk with the same depths and kinds has the same tree of kinds. The counts are those of that tree, and together
they are as many as the walk is long. -/
theorem walk_encodes (hkind : e.Everywhere fun x => x.carried? ≠ none) (hgenuine : e.Everywhere Genuine) :
    ∃ occurrences shape counts, Enumerates occurrences e ∧ e.shape? = some shape ∧
      e.countKinds = .ok counts ∧ counts.values.sum = occurrences.length ∧
      (∀ kind, countOf counts kind = shape.count kind ∧
        countOf counts kind = occurrences.countP fun o => o.2.carried? = some kind) ∧
      ∀ d, ∃ nodes, e.walkFrom d = .ok nodes ∧ nodes = occurrences.map (placed d) ∧
        (∃ later, nodes.map Prod.fst = d :: later ∧ ∀ n ∈ later, d + 1 ≤ n) ∧
        (nodes.map Prod.fst).IsChain (fun m n => n ≤ m + 1) ∧
        ∀ (e' : Effect) d' nodes', e'.walkFrom d' = .ok nodes' → outline nodes' = outline nodes →
          e'.shape? = some shape := by
  obtain ⟨nodes, hwalk⟩ := exists_walkFrom hkind hgenuine 0
  obtain ⟨occurrences, hoccurrences, rfl⟩ := enumerates_of_walk hwalk
  obtain ⟨shape, hshape, _⟩ := outline_of_walk hwalk
  obtain ⟨counts, hcounts, hcount⟩ := countOf_countKinds hwalk
  refine ⟨occurrences, shape, counts, hoccurrences, hshape, hcounts, ?_, fun kind => ⟨?_, ?_⟩, fun d => ?_⟩
  · rw [countKinds_of_walk hwalk] at hcounts
    rw [← Except.ok.inj hcounts, sum_countLabels, List.length_map, List.length_map]
    exact Nat.zero_add _
  · rw [hcount, labels_of_walk hwalk hshape, shape.count_eq kind 0]
    exact List.count_map_of_injective _ _ (fun _ _ => EffectKind.name_injective) kind
  · rw [hcount, count_labels hoccurrences hkind]
  -- From another depth it is the same enumeration, as there is but one.
  obtain ⟨nodes, hwalk⟩ := exists_walkFrom hkind hgenuine d
  obtain ⟨again, hagain, hnodes⟩ := enumerates_of_walk hwalk
  rw [hagain.unique hoccurrences] at hnodes
  obtain ⟨hstart, hchain⟩ := depths_of_walk hwalk
  refine ⟨nodes, hwalk, hnodes, hstart, hchain, fun e' d' nodes' hwalk' heq => ?_⟩
  rw [shape?_of_outline hwalk hwalk' heq, hshape]

theorem walk_encodes_thicket : (Duel.thicket.Everywhere fun x => x.carried? ≠ none) ∧
    Duel.thicket.Everywhere Genuine ∧ ∃ occurrences shape counts, Enumerates occurrences Duel.thicket ∧
      Duel.thicket.shape? = some shape ∧ Duel.thicket.countKinds = .ok counts ∧ occurrences.length = 4 ∧
      shape.count .resource = 2 ∧ ([1, 0], custom Duel.token) ∈ occurrences ∧
      ∃ nodes, Duel.thicket.walkFrom 3 = .ok nodes ∧
        outline nodes = [(3, "parallel"), (4, "resource"), (4, "chained"), (5, "resource")] := by
  have hkind : Duel.thicket.Everywhere fun x => x.carried? ≠ none :=
    Duel.thicket_everywhere nofun (by decide +kernel) nofun
  obtain ⟨occurrences, shape, counts, hoccurrences, hshape, hcounts, hsum, hcount, hwalk⟩ :=
    walk_encodes hkind Duel.thicket_genuine
  have hlabels : Duel.thicket.countKinds =
      .ok (countLabels .empty ["parallel", "resource", "chained", "resource"]) := rfl
  obtain rfl := Except.ok.inj (hcounts.symm.trans hlabels)
  obtain ⟨nodes, hnodes, _⟩ := hwalk 3
  have houtline : Duel.thicket.walkFrom 3 = .ok _ := rfl
  obtain rfl := Except.ok.inj (hnodes.symm.trans houtline)
  refine ⟨hkind, Duel.thicket_genuine, occurrences, shape, _, hoccurrences, hshape, hcounts, ?_, ?_, ?_, _,
    hnodes, rfl⟩
  · rw [← hsum]
    decide +kernel
  · rw [← (hcount .resource).1]
    decide +kernel
  · exact (hoccurrences.mem_iff _ _).mpr rfl

end Effect

end Cardplay
