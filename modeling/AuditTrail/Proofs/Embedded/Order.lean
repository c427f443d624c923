import AuditTrail.Embedded.Database

/-! Cells are in a strict linear order, so a sort key never leaves the place of a row open except
between rows that agree on all of its columns. Arranged rows are therefore determined by which rows
there are, as soon as the key tells those rows apart. -/
namespace AuditTrail.Embedded
namespace Cell

theorem bytesBefore_iff (a b : List UInt8) : bytesBefore a b = true ↔ a < b := by
  induction a generalizing b with
  | nil => cases b <;> simp [bytesBefore]
  | cons x xs ih =>
    cases b with
    | nil => simp [bytesBefore]
    | cons y ys => simp [bytesBefore, ih, List.cons_lt_cons_iff]

theorem before_irrefl (a : Cell) : a.before a = false := by
  cases a <;> simp [before, rank]
  exact Bool.eq_false_iff.mpr fun h => List.lt_irrefl _ ((bytesBefore_iff _ _).mp h)

theorem before_of_rank_lt {a b : Cell} (less : a.rank < b.rank) : a.before b = true := by
  cases a <;> cases b <;> first
    | rfl
    | simp [rank] at less

theorem rank_le_of_before {a b : Cell} (ab : a.before b = true) : a.rank ≤ b.rank := by
  cases a <;> cases b <;> first
    | exact Nat.le_refl _
    | exact Nat.le_of_lt (of_decide_eq_true ab)

theorem before_trans {a b c : Cell} (ab : a.before b = true) (bc : b.before c = true) :
    a.before c = true := by
  have first := rank_le_of_before ab
  have second := rank_le_of_before bc
  by_cases less : a.rank < c.rank
  · exact before_of_rank_lt less
  -- All three cells are of one type.
  have same : a.rank = b.rank ∧ b.rank = c.rank := by omega
  cases a <;> cases b <;> cases c <;> try (simp [rank] at same; done)
  · exact ab
  · exact decide_eq_true (Int.lt_trans (of_decide_eq_true ab) (of_decide_eq_true bc))
  · exact decide_eq_true (String.lt_trans (of_decide_eq_true ab) (of_decide_eq_true bc))
  · exact (bytesBefore_iff _ _).mpr
      (List.lt_trans ((bytesBefore_iff _ _).mp ab) ((bytesBefore_iff _ _).mp bc))

theorem before_connected {a b : Cell} (ab : a.before b = false) (ba : b.before a = false) :
    a = b := by
  have first : ¬ a.rank < b.rank := fun less => by simp [before_of_rank_lt less] at ab
  have second : ¬ b.rank < a.rank := fun less => by simp [before_of_rank_lt less] at ba
  have same : a.rank = b.rank := by omega
  cases a <;> cases b <;> try (simp [rank] at same; done)
  · rfl
  · next m n =>
    have le := Int.not_lt.mp (of_decide_eq_false ab)
    have ge := Int.not_lt.mp (of_decide_eq_false ba)
    rw [Int.le_antisymm ge le]
  · next m n =>
    have le := String.not_lt.mp (of_decide_eq_false ab)
    have ge := String.not_lt.mp (of_decide_eq_false ba)
    rw [String.le_antisymm ge le]
  · next m n =>
    have le : ¬ m < n := fun less => by simp [before, (bytesBefore_iff m n).mpr less] at ab
    have ge : ¬ n < m := fun less => by simp [before, (bytesBefore_iff n m).mpr less] at ba
    rw [List.le_antisymm (List.not_lt.mp ge) (List.not_lt.mp le)]

theorem before_asymm {a b : Cell} (ab : a.before b = true) : b.before a = false :=
  Bool.eq_false_iff.mpr fun ba => by
    have loop := before_trans ab ba
    rw [before_irrefl] at loop
    contradiction

/-- What lies before a cell lies before every other cell, or that cell does. -/
theorem before_split {a c : Cell} (b : Cell) (ac : a.before c = true) :
    a.before b = true ∨ b.before c = true := by
  cases ab : a.before b with
  | true => exact .inl rfl
  | false =>
    right
    cases ba : b.before a with
    | true => exact before_trans ba ac
    | false => rwa [← before_connected ab ba]

end Cell

variable {order : List SortKey} {a b c : Row} {rows rows' : List Row}

theorem precedes_split (b : Row) (ac : precedes order a c = true) :
    precedes order a b = true ∨ precedes order b c = true := by
  induction order with
  | nil => simp [precedes] at ac
  | cons k ks ih =>
    simp only [precedes] at ac ⊢
    by_cases eab : a.get k.column = b.get k.column
    · by_cases ebc : b.get k.column = c.get k.column
      · rw [if_pos (eab.trans ebc)] at ac
        rw [if_pos eab, if_pos ebc]
        exact ih ac
      · rw [if_neg (eab ▸ ebc)] at ac
        rw [if_neg ebc]
        right
        rwa [← eab]
    · by_cases ebc : b.get k.column = c.get k.column
      · rw [if_neg fun e => eab (e.trans ebc.symm)] at ac
        rw [if_neg eab]
        left
        rwa [ebc]
      · rw [if_neg eab, if_neg ebc]
        by_cases eac : a.get k.column = c.get k.column
        · rw [← eac]
          cases before : (a.get k.column).before (b.get k.column) with
          | true => cases k.descending <;> simp
          | false =>
            have after := mt (Cell.before_connected before) eab
            simp only [Bool.not_eq_false] at after
            cases k.descending <;> simp [after]
        · rw [if_neg eac] at ac
          cases down : k.descending <;> simp only [down] at ac ⊢
          · exact Cell.before_split _ ac
          · exact (Cell.before_split _ ac).symm

theorem precedes_asymm (ab : precedes order a b = true) : precedes order b a = false := by
  induction order with
  | nil => simp [precedes] at ab
  | cons k ks ih =>
    simp only [precedes, eq_comm (a := b.get k.column)] at ab ⊢
    split at ab
    · next same => rw [if_pos same]; exact ih ab
    · next other =>
      rw [if_neg other]
      cases down : k.descending <;> simp only [down] at ab ⊢ <;> exact Cell.before_asymm ab

/-- Rows of which neither precedes the other agree on every column of the key. -/
theorem get_eq_of_not_precedes (ab : precedes order a b = false) (ba : precedes order b a = false) :
    ∀ k ∈ order, a.get k.column = b.get k.column := by
  induction order with
  | nil => simp
  | cons k ks ih =>
    by_cases same : a.get k.column = b.get k.column
    · simp only [precedes, if_pos same, if_pos same.symm] at ab ba
      exact List.forall_mem_cons.mpr ⟨same, ih ab ba⟩
    · simp only [precedes, if_neg same, if_neg (Ne.symm same)] at ab ba
      refine absurd ?_ same
      cases down : k.descending <;> simp only [down] at ab ba
      · exact Cell.before_connected ab ba
      · exact Cell.before_connected ba ab

theorem arrange_perm (order : List SortKey) (rows : List Row) : (arrange order rows).Perm rows := by
  unfold arrange
  split
  · exact .refl _
  · exact List.mergeSort_perm _ _

theorem arrange_pairwise (order : List SortKey) (rows : List Row) :
    (arrange order rows).Pairwise fun a b => precedes order b a = false := by
  unfold arrange
  split
  · next empty =>
    rw [List.isEmpty_iff.mp empty]
    exact List.pairwise_of_forall fun _ _ => rfl
  · have sorted := @List.pairwise_mergeSort Row (fun a b => !precedes order b a)
      (fun a b c ab bc => ?_) (fun a b => ?_) rows
    · exact sorted.imp fun h => by simpa using h
    · rw [Bool.not_eq_true'] at ab bc ⊢
      refine Bool.eq_false_iff.mpr fun ca => ?_
      rcases precedes_split b ca with cb | ba
      · rw [cb] at bc; contradiction
      · rw [ba] at ab; contradiction
    · cases ba : precedes order b a with
      | false => rfl
      | true => simp [precedes_asymm ba]

/-- Where the key tells rows apart, their arrangement depends on nothing else in the table. -/
theorem filter_arrange_congr {p : Row → Bool} (perm : (rows.filter p).Perm (rows'.filter p))
    (apart : ∀ a ∈ rows.filter p, ∀ b ∈ rows.filter p,
      (∀ k ∈ order, a.get k.column = b.get k.column) → a = b) :
    (arrange order rows).filter p = (arrange order rows').filter p := by
  have left := (arrange_perm order rows).filter p
  have right := (arrange_perm order rows').filter p
  refine List.Perm.eq_of_pairwise ?_ ((arrange_pairwise order rows).filter p)
    ((arrange_pairwise order rows').filter p) (left.trans (perm.trans right.symm))
  intro a b aMem bMem ba ab
  exact apart a (left.subset aMem) b (perm.symm.subset (right.subset bMem))
    (get_eq_of_not_precedes ab ba)

end AuditTrail.Embedded
