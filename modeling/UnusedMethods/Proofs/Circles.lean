import UnusedMethods.Proofs.Packages

/-!
# Comparisons in checked programs

The components of a type are older than the type, and a declared type is compared by its name. So a comparison
goes down in the table, except where it follows the methods of two interfaces: only there can it run in a circle.
An interface whose method takes an interface that embeds the first one leads into such a circle.
-/

namespace UnusedMethods.Types

/-! ## Questions about components -/

theorem exists_of_mem_zipQuestions {α : Type} {question : α → α → Option TypePair} {xs ys : List α} {q : TypePair}
    (h : some q ∈ zipQuestions question xs ys) : ∃ x ∈ xs, ∃ y, question x y = some q := by
  unfold zipQuestions at h
  split at h
  · rw [← List.map_uncurry_zip_eq_zipWith, List.mem_map] at h
    obtain ⟨⟨x, y⟩, hxy, hq⟩ := h
    exact ⟨x, (List.of_mem_zip hxy).1, y, hq⟩
  · simp at h

theorem fst_mem_of_mem_zipQuestions {xs ys : List TypeId} {q : TypePair}
    (h : some q ∈ zipQuestions (fun x y => some (x, y)) xs ys) : q.1 ∈ xs := by
  obtain ⟨x, hx, y, hq⟩ := exists_of_mem_zipQuestions h
  cases hq
  exact hx

/-- What is asked about two types concerns parts of the first one, unless the types are interfaces. -/
theorem Ty.fst_mem_parts_of_mem_questions {t : Table} {x y : Ty} {q : TypePair} (h : some q ∈ x.questions t y) :
    q.1 ∈ x.parts ∨ x.isInterface = true ∧ y.isInterface = true := by
  unfold Ty.questions at h
  split at h
  case h_1 => split at h <;> simp at h
  case h_2 n m =>
    split at h
    · split at h
      · exact .inl (List.mem_append_left _ (fst_mem_of_mem_zipQuestions h))
      · simp at h
    · simp at h
  case h_3 => simp at h; simp [h, Ty.parts]
  case h_4 => simp at h; simp [h, Ty.parts]
  case h_5 => split at h <;> simp at h; simp [h, Ty.parts]
  case h_6 =>
    simp only [List.mem_cons, Option.some.injEq, List.not_mem_nil, or_false] at h
    rcases h with rfl | rfl <;> simp [Ty.parts]
  case h_7 => split at h <;> simp at h; simp [h, Ty.parts]
  case h_8 =>
    split at h
    · rcases List.mem_append.1 h with h | h
      · exact .inl (List.mem_append_left _ (fst_mem_of_mem_zipQuestions h))
      · exact .inl (List.mem_append_right _ (fst_mem_of_mem_zipQuestions h))
    · simp at h
  case h_9 => exact .inl (fst_mem_of_mem_zipQuestions h)
  case h_10 =>
    obtain ⟨f, hf, g, hq⟩ := exists_of_mem_zipQuestions h
    split at hq <;> cases hq
    exact .inl (List.mem_map_of_mem hf)
  case h_11 => exact .inr ⟨rfl, rfl⟩
  case h_12 =>
    obtain ⟨f, hf, g, hq⟩ := exists_of_mem_zipQuestions h
    split at hq <;> cases hq
    exact .inl (List.mem_map_of_mem hf)
  case h_13 => simp at h

namespace Table

variable {t : Table} {p q : TypePair}

/-- Two different interfaces. -/
def AreInterfaces (t : Table) (p : TypePair) : Prop :=
  p.1 ≠ p.2 ∧ (t.get p.1).isInterface = true ∧ (t.get p.2).isInterface = true

instance (t : Table) (p : TypePair) : Decidable (t.AreInterfaces p) := inferInstanceAs (Decidable (_ ∧ _))

/-- A comparison goes down in the table, or follows the methods of two interfaces. -/
theorem Asks.lt_or_interfaces (hwf : t.WF) (h : t.Asks p q) : q.1.index < p.1.index ∨ t.AreInterfaces p := by
  obtain ⟨before, after, heq, -⟩ := h
  have hmem : some q ∈ t.questions p := by simp [heq]
  unfold questions at hmem
  split at hmem
  · cases hmem
  · rename_i hne
    rcases Ty.fst_mem_parts_of_mem_questions hmem with hpart | hinterfaces
    · exact .inl ((hwf.get p.1).parts q.1 hpart)
    · exact .inr ⟨hne, hinterfaces⟩

theorem exists_interfaces_of_transGen (hwf : t.WF) (h : Relation.TransGen t.Asks p q) :
    q.1.index < p.1.index ∨
      ∃ r, t.AreInterfaces r ∧ Relation.ReflTransGen t.Asks p r ∧ Relation.TransGen t.Asks r q := by
  induction h with
  | single hpq =>
    rcases hpq.lt_or_interfaces hwf with hlt | hinterfaces
    · exact .inl hlt
    · exact .inr ⟨p, hinterfaces, .refl, .single hpq⟩
  | @tail m q hpm hmq ih =>
    rcases ih with hlt | ⟨r, hinterfaces, hpr, hrm⟩
    · rcases hmq.lt_or_interfaces hwf with hlt' | hinterfaces
      · exact .inl (Nat.lt_trans hlt' hlt)
      · exact .inr ⟨m, hinterfaces, hpm.to_reflTransGen, .single hmq⟩
    · exact .inr ⟨r, hinterfaces, hpr, hrm.tail hmq⟩

/-- Every circle goes through two interfaces. -/
theorem Circular.exists_interfaces (hwf : t.WF) (h : t.Circular p) :
    ∃ r, t.AreInterfaces r ∧ Relation.ReflTransGen t.Asks p r ∧ Relation.TransGen t.Asks r r := by
  obtain ⟨q, hpq, hqq⟩ := h
  rcases exists_interfaces_of_transGen hwf hqq with hlt | ⟨r, hinterfaces, hqr, hrq⟩
  · exact absurd hlt (Nat.lt_irrefl _)
  · exact ⟨r, hinterfaces, hpq.trans hqr, hrq.trans_left hqr⟩

end Table

end UnusedMethods.Types

namespace UnusedMethods.Typing

open UnusedMethods.Types

/-- At any stage of a program, the comparison of two types ends unless it comes to two interfaces whose methods lead
back to them. Where it ends, `identical` gives its answer. -/
theorem identical_ends_iff {t : Table} {packages : Array Package} (h : Stage t packages) (a b : TypeId) :
    ((∃ n answer, t.identicalWithin n a b = some answer) ↔
      ¬ ∃ r, t.AreInterfaces r ∧ Relation.ReflTransGen t.Asks (a, b) r ∧ Relation.TransGen t.Asks r r) ∧
    ∀ n answer, t.identicalWithin n a b = some answer → t.identical a b = answer := by
  refine ⟨(Table.exists_compareWithin_iff t (a, b)).trans (not_congr ⟨?_, ?_⟩), ?_⟩
  · exact fun hcircular => hcircular.exists_interfaces h.wf.1
  · rintro ⟨r, -, hreach, hcircle⟩
    exact ⟨r, hreach, hcircle⟩
  · exact fun n answer hn => Table.identical_of_compareWithin (p := (a, b)) hn

/-- Two interfaces with a method whose parameter embeds the interface itself. -/
def selfEmbedding : String :=
  "package app

type A interface \x7b M(interface\x7b A \x7d) \x7d

type B interface \x7b M(interface\x7b B \x7d) \x7d
"

/-- The methods of the two interfaces of `selfEmbedding` have signatures whose comparison has no answer, however long
it goes on. -/
theorem self_embedding_never_compared :
    ∃ a b f g, (checkText selfEmbedding).1.scope.find? "A" = some (.typeName a) ∧
      (checkText selfEmbedding).1.scope.find? "B" = some (.typeName b) ∧
      (checkText selfEmbedding).2.interfaceMethods a = [f] ∧ (checkText selfEmbedding).2.interfaceMethods b = [g] ∧
      ∀ n, (checkText selfEmbedding).2.identicalWithin n ((checkText selfEmbedding).2.func f).sig
        ((checkText selfEmbedding).2.func g).sig = none := by
  have h : (checkText selfEmbedding).1.scope.find? "A" = some (.typeName ⟨31⟩) ∧
      (checkText selfEmbedding).1.scope.find? "B" = some (.typeName ⟨32⟩) ∧
      (checkText selfEmbedding).2.interfaceMethods ⟨31⟩ = [⟨1⟩] ∧
      (checkText selfEmbedding).2.interfaceMethods ⟨32⟩ = [⟨2⟩] ∧
      ((checkText selfEmbedding).2.func ⟨1⟩).sig = ⟨34⟩ ∧ ((checkText selfEmbedding).2.func ⟨2⟩).sig = ⟨37⟩ ∧
      (checkText selfEmbedding).2.questions (⟨34⟩, ⟨37⟩) = [some (⟨33⟩, ⟨36⟩)] ∧
      (checkText selfEmbedding).2.questions (⟨33⟩, ⟨36⟩) = [some (⟨34⟩, ⟨37⟩)] ∧
      (checkText selfEmbedding).2.AreInterfaces (⟨33⟩, ⟨36⟩) := by
    decide +kernel
  obtain ⟨ha, hb, hf, hg, hsigA, hsigB, hdown, hup, hinterfaces⟩ := h
  refine ⟨⟨31⟩, ⟨32⟩, ⟨1⟩, ⟨2⟩, ha, hb, hf, hg, ?_⟩
  rw [hsigA, hsigB]
  -- the signatures ask about their parameters, and these about the signatures
  have hasks : (checkText selfEmbedding).2.Asks (⟨34⟩, ⟨37⟩) (⟨33⟩, ⟨36⟩) := ⟨[], [], hdown, nofun⟩
  have hback : (checkText selfEmbedding).2.Asks (⟨33⟩, ⟨36⟩) (⟨34⟩, ⟨37⟩) := ⟨[], [], hup, nofun⟩
  have hends := (identical_ends_iff (stage_checkText selfEmbedding) ⟨34⟩ ⟨37⟩).1
  intro n
  cases hn : (checkText selfEmbedding).2.identicalWithin n ⟨34⟩ ⟨37⟩ with
  | none => rfl
  | some answer =>
    refine absurd ?_ (hends.1 ⟨n, answer, hn⟩)
    exact ⟨(⟨33⟩, ⟨36⟩), hinterfaces, .single hasks, .tail (.single hback) hasks⟩

end UnusedMethods.Typing
