import CanBus.Netlink.Message
import CanBus.Proofs.Identifier
import CanBus.Proofs.Netlink.Attribute

/-!
What is read off a message about a link. Attributes come in any order and number, and those
that are not looked at may hold anything. If those with others nested in them are `Nested`, it
takes a bit timing that is too short to make the message unreadable (`ofInfo?_nested`), and of
each type the last attribute is the one that counts. A message with `Readable` attributes can
be read (`ofInfo?_readable`).
-/

namespace CanBus.Netlink

open Attribute

namespace Details

/-! ## Attributes -/

/-- Link information can be read: `inner` gives what is nested in it. -/
structure ReadableInfo (inner : Attribute → List Attribute) (a : Attribute) : Prop where
  data : a.kind = kindDataType → Laid (inner a) a.payload
  bitTiming : a.kind = kindDataType →
    ∀ p ∈ inner a, p.kind = bitTimingType → p.payload.length = 32

/-- An attribute of a link can be read, with all that is nested in it. -/
structure Readable (inner : Attribute → List Attribute) (a : Attribute) : Prop where
  queueLength : a.kind = queueLengthType → a.payload.length = 4
  linkInfo : a.kind = linkInfoType → Laid (inner a) a.payload
  info : a.kind = linkInfoType → ∀ i ∈ inner a, ReadableInfo inner i

/-- What is nested in an attribute of a link can be told apart, link
information and the data in it. -/
structure Nested (inner : Attribute → List Attribute) (a : Attribute) : Prop where
  linkInfo : a.kind = linkInfoType → Laid (inner a) a.payload
  data : a.kind = linkInfoType →
    ∀ i ∈ inner a, i.kind = kindDataType → Laid (inner i) i.payload

/-- No bit timing is too short. -/
def Timed (ps : List Attribute) : Prop :=
  ∀ p ∈ ps, p.kind = bitTimingType → bitTimingSize ≤ p.payload.length

instance (ps : List Attribute) : Decidable (Timed ps) :=
  inferInstanceAs
    (Decidable (∀ p ∈ ps, p.kind = bitTimingType → bitTimingSize ≤ p.payload.length))

theorem timed_append (ps qs : List Attribute) : Timed (ps ++ qs) ↔ Timed ps ∧ Timed qs := by
  unfold Timed
  simp only [List.mem_append, or_imp, forall_and]

theorem timed_cons (p : Attribute) (ps : List Attribute) :
    Timed (p :: ps) ↔ (p.kind = bitTimingType → bitTimingSize ≤ p.payload.length) ∧
      Timed ps :=
  List.forall_mem_cons

variable {inner : Attribute → List Attribute} {as : List Attribute}

theorem Readable.nested {a : Attribute} (h : Readable inner a) : Nested inner a :=
  ⟨h.linkInfo, fun hl i hi hd => (h.info hl i hi).data hd⟩

theorem Readable.timed (h : ∀ a ∈ as, Readable inner a) :
    Timed (within kindDataType inner (within linkInfoType inner as)) := by
  intro p hp hk
  obtain ⟨i, hi, hd, hp⟩ := mem_within.mp hp
  obtain ⟨a, ha, hl, hi⟩ := mem_within.mp hi
  exact Nat.le_of_eq (((h a ha).info hl i hi).bitTiming hd p hp hk).symm

theorem foldlM_addParameter (ps : List Attribute) (d : Details) :
    ps.foldlM addParameter d =
      if Timed ps then some { d with bitrate := latest bitTimingType word? d.bitrate ps }
      else none := by
  induction ps generalizing d with
  | nil => rfl
  | cons p ps ih =>
    rw [List.foldlM_cons, addParameter, latest_cons]
    by_cases hk : p.kind = bitTimingType
    · by_cases hsize : p.payload.length < bitTimingSize
      · have hshort : ¬ Timed (p :: ps) :=
          fun h => Nat.not_le.mpr hsize (((timed_cons p ps).mp h).1 hk)
        rw [if_pos hk, if_pos hsize, if_neg hshort]
        rfl
      · have hrest : Timed (p :: ps) ↔ Timed ps := by
          rw [timed_cons, and_iff_right fun _ => Nat.not_lt.mp hsize]
        rw [if_pos hk, if_neg hsize, if_pos hk]
        simp only [hrest]
        exact ih _
    · have hrest : Timed (p :: ps) ↔ Timed ps := by
        rw [timed_cons, and_iff_right fun h => absurd h hk]
      rw [if_neg hk, if_neg hk]
      simp only [hrest]
      exact ih _

theorem foldlM_addLinkInfo (h : ∀ a ∈ as, a.kind = kindDataType → Laid (inner a) a.payload)
    (d : Details) :
    as.foldlM addLinkInfo d =
      if Timed (within kindDataType inner as) then some { d with
        kind := latest kindType text? d.kind as
        bitrate := latest bitTimingType word? d.bitrate (within kindDataType inner as) }
      else none := by
  induction as generalizing d with
  | nil => rfl
  | cons a as ih =>
    have hrest (d : Details) := ih (fun b hb => h b (List.mem_cons_of_mem a hb)) d
    rw [List.foldlM_cons, addLinkInfo, latest_cons]
    by_cases hk : a.kind = kindType
    · have hd : a.kind ≠ kindDataType := by rw [hk]; decide
      rw [if_pos hk, if_pos hk, within_cons_of_ne hd]
      exact hrest _
    by_cases hd : a.kind = kindDataType
    · rw [if_neg hk, if_pos hd, (h a List.mem_cons_self hd).parseAll?, if_neg hk,
        within_cons_of_eq hd, latest_append]
      show ((inner a).foldlM addParameter d >>= fun d => as.foldlM addLinkInfo d) = _
      rw [foldlM_addParameter]
      simp only [timed_append]
      by_cases ht : Timed (inner a)
      · simp only [ht, true_and, if_true]
        exact hrest _
      · simp only [ht, false_and, if_false]
        rfl
    · rw [if_neg hk, if_neg hd, if_neg hk, within_cons_of_ne hd]
      exact hrest _

theorem foldlM_add (h : ∀ a ∈ as, Nested inner a) (d : Details) :
    as.foldlM add d =
      if Timed (within kindDataType inner (within linkInfoType inner as)) then some { d with
        name := latest nameType text? d.name as
        queueLength := latest queueLengthType word? d.queueLength as
        kind := latest kindType text? d.kind (within linkInfoType inner as)
        bitrate := latest bitTimingType word? d.bitrate
          (within kindDataType inner (within linkInfoType inner as)) } else none := by
  induction as generalizing d with
  | nil => rfl
  | cons a as ih =>
    have ha := h a List.mem_cons_self
    have hrest (d : Details) := ih (fun b hb => h b (List.mem_cons_of_mem a hb)) d
    rw [List.foldlM_cons, add, latest_cons, latest_cons]
    by_cases hn : a.kind = nameType
    · have hq : a.kind ≠ queueLengthType := by rw [hn]; decide
      have hi : a.kind ≠ linkInfoType := by rw [hn]; decide
      rw [if_pos hn, if_pos hn, if_neg hq, within_cons_of_ne hi]
      exact hrest _
    by_cases hq : a.kind = queueLengthType
    · have hi : a.kind ≠ linkInfoType := by rw [hq]; decide
      rw [if_neg hn, if_pos hq, if_neg hn, if_pos hq, within_cons_of_ne hi]
      exact hrest _
    by_cases hi : a.kind = linkInfoType
    · rw [if_neg hn, if_neg hq, if_pos hi, (ha.linkInfo hi).parseAll?, if_neg hn, if_neg hq,
        within_cons_of_eq hi, within_append, latest_append, latest_append]
      show ((inner a).foldlM addLinkInfo d >>= fun d => as.foldlM add d) = _
      rw [foldlM_addLinkInfo (ha.data hi)]
      simp only [timed_append]
      by_cases ht : Timed (within kindDataType inner (inner a))
      · simp only [ht, true_and, if_true]
        exact hrest _
      · simp only [ht, false_and, if_false]
        rfl
    · rw [if_neg hn, if_neg hq, if_neg hi, if_neg hn, if_neg hq, within_cons_of_ne hi]
      exact hrest _

/-! ## All of it -/

/-- Nothing else than the last attributes of a few types has a bearing on the details, and
nothing but a short bit timing on whether there are any. The kind makes no difference to
what is read of the data. -/
theorem ofInfo?_nested (h : ∀ a ∈ as, Nested inner a) (flags : UInt32) :
    let infos := within linkInfoType inner as
    let parameters := within kindDataType inner infos
    ofInfo? ⟨flags, as⟩ =
      if Timed parameters then some {
        name := (last? nameType as).bind text?
        isUp := flags.toNat.testBit 0
        kind := (last? kindType infos).bind text?
        queueLength := (last? queueLengthType as).bind word?
        bitrate := (last? bitTimingType parameters).map word } else none := by
  intro infos parameters
  have hup : (flags &&& 1 != 0) = flags.toNat.testBit 0 :=
    IdWord.and_flag_ne_zero flags 1 (by decide)
  rw [ofInfo?, foldlM_add h, latest_none, latest_none, latest_none, hup]
  by_cases ht : Timed parameters
  · have hrate : latest bitTimingType word? none parameters =
        (last? bitTimingType parameters).map word :=
      latest_some fun p hp hk => word?_eq (Nat.le_trans (by decide) (ht p hp hk))
    rw [if_pos ht, if_pos ht, hrate]
  · rw [if_neg ht, if_neg ht]

/-- As `ofInfo?_nested`, for attributes of the sizes that they should have. -/
theorem ofInfo?_readable (h : ∀ a ∈ as, Readable inner a) (flags : UInt32) :
    let infos := within linkInfoType inner as
    let parameters := within kindDataType inner infos
    ofInfo? ⟨flags, as⟩ = some {
      name := (last? nameType as).bind text?
      isUp := flags.toNat.testBit 0
      kind := (last? kindType infos).bind text?
      queueLength := (last? queueLengthType as).map word
      bitrate := (last? bitTimingType parameters).map word } := by
  intro infos parameters
  have hqueue : (last? queueLengthType as).bind word? = (last? queueLengthType as).map word := by
    rw [← latest_none, latest_some]
    exact fun a ha hk => word?_eq (Nat.le_of_eq ((h a ha).queueLength hk).symm)
  rw [ofInfo?_nested fun a ha => (h a ha).nested, if_pos (Readable.timed h), hqueue]

/-! ## And nothing else -/

/-- A fold that succeeds did so at each element. -/
theorem exists_of_foldlM {α β : Type} {f : β → α → Option β} {xs : List α} {b b' : β}
    (h : xs.foldlM f b = some b') : ∀ x ∈ xs, ∃ c c', f c x = some c' := by
  induction xs generalizing b with
  | nil => simp
  | cons x xs ih =>
    rw [List.foldlM_cons] at h
    obtain ⟨c, hc, hrest⟩ := Option.bind_eq_some_iff.mp h
    exact List.forall_mem_cons.mpr ⟨⟨b, c, hc⟩, ih hrest⟩

theorem laid_of_addLinkInfo {a : Attribute} {d d' : Details} (h : addLinkInfo d a = some d')
    (hd : a.kind = kindDataType) : Laid (children a) a.payload := by
  have hk : a.kind ≠ kindType := by rw [hd]; decide
  rw [addLinkInfo, if_neg hk, if_pos hd] at h
  obtain ⟨ps, hps, -⟩ := Option.bind_eq_some_iff.mp h
  exact laid_children (laid_of_parseAll? hps)

theorem nested_of_add {a : Attribute} {d d' : Details} (h : add d a = some d') :
    Nested children a := by
  by_cases hl : a.kind = linkInfoType
  · have hn : a.kind ≠ nameType := by rw [hl]; decide
    have hq : a.kind ≠ queueLengthType := by rw [hl]; decide
    rw [add, if_neg hn, if_neg hq, if_pos hl] at h
    obtain ⟨is, his, hfold⟩ := Option.bind_eq_some_iff.mp h
    have hlaid := laid_of_parseAll? his
    refine ⟨fun _ => laid_children hlaid, fun _ => ?_⟩
    rw [children_of_laid hlaid]
    intro i hi hd
    obtain ⟨e, e', he⟩ := exists_of_foldlM hfold i hi
    exact laid_of_addLinkInfo he hd
  · exact ⟨fun h => absurd h hl, fun h => absurd h hl⟩

/-- The details of a link, if there are any, are read off attributes that can be told apart. -/
theorem ofInfo?_eq_some_iff {flags : UInt32} {d : Details} :
    let infos := within linkInfoType children as
    let parameters := within kindDataType children infos
    ofInfo? ⟨flags, as⟩ = some d ↔
      (∀ a ∈ as, Nested children a) ∧ Timed parameters ∧ d = {
        name := (last? nameType as).bind text?
        isUp := flags.toNat.testBit 0
        kind := (last? kindType infos).bind text?
        queueLength := (last? queueLengthType as).bind word?
        bitrate := (last? bitTimingType parameters).map word } := by
  intro infos parameters
  constructor
  · intro h
    have hnested : ∀ a ∈ as, Nested children a := by
      intro a ha
      obtain ⟨e, e', he⟩ := exists_of_foldlM h a ha
      exact nested_of_add he
    rw [ofInfo?_nested hnested] at h
    by_cases ht : Timed parameters
    · rw [if_pos ht] at h
      exact ⟨hnested, ht, (Option.some.inj h).symm⟩
    · rw [if_neg ht] at h
      cases h
  · rintro ⟨hnested, ht, rfl⟩
    rw [ofInfo?_nested hnested, if_pos ht]

end Details

end CanBus.Netlink
