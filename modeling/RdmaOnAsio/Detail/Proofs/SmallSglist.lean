import RdmaOnAsio.Detail.SmallSglist

/-!
# When `small_sglist` is a growable array

Every operation keeps `data_` on the store that its elements fit in. The elements themselves are lost where
an operation leaves `inline_` for a block that is already there: `reserve` copies into the blocks it
allocates and into no other.
-/

namespace RdmaOnAsio

universe u

variable {α : Type u} {src dst : List α} {n i count : Nat} {v : α}

theorem length_copyN (hs : n ≤ src.length) (hd : n ≤ dst.length) :
    (copyN src n dst).length = dst.length := by
  rw [copyN, List.length_append, List.length_take, List.length_drop]
  omega

theorem getElem?_copyN (hi : i < n) (hs : n ≤ src.length) : (copyN src n dst)[i]? = src[i]? := by
  rw [copyN, List.getElem?_append_left (by rw [List.length_take]; omega), List.getElem?_take_of_lt hi]

/-! What is written in the plain array after a step. -/

theorem getElem?_resized {l : List (Option α)} {w : α} :
    (l.take count ++ List.replicate (count - l.length) none)[i]? = some (some w) ↔
      i < count ∧ l[i]? = some (some w) := by
  rw [List.getElem?_append, List.length_take, List.getElem?_replicate, List.getElem?_take]
  by_cases hi : i < l.length
  · by_cases hc : i < count
    · rw [if_pos (Nat.lt_min.2 ⟨hc, hi⟩), if_pos hc, and_iff_right hc]
    · rw [if_neg (fun h => hc (Nat.lt_min.1 h).1), if_neg (by omega)]
      simp [hc]
  · rw [List.getElem?_eq_none (Nat.not_lt.1 hi)]
    split_ifs <;> simp

theorem getElem?_appended {l : List (Option α)} {w : α} :
    (l ++ [some v])[i]? = some (some w) ↔ i = l.length ∧ v = w ∨ l[i]? = some (some w) := by
  rw [List.getElem?_append]
  by_cases hi : i < l.length
  · rw [if_pos hi]
    refine ⟨.inr, fun h => h.resolve_left fun heq => absurd heq.1 (by omega)⟩
  · rw [if_neg hi, List.getElem?_eq_none (Nat.not_lt.1 hi)]
    by_cases heq : i = l.length
    · simp [heq]
    · have : i - l.length ≠ 0 := by omega
      simp [heq, this]

namespace SmallSglist

variable [Inhabited α] {inlineSgeCount : Nat} {s t : SmallSglist α inlineSgeCount}
  {p q : Paired α inlineSgeCount} {op : Op α}

/-- The two stores have the length they should, and `data_` is on the one the size asks for. -/
structure Wf (s : SmallSglist α inlineSgeCount) : Prop where
  inline_length : s.inline_.length = inlineSgeCount
  block : s.heap = none ∧ s.heapCapacity = 0 ∨
    ∃ b, s.heap = some b ∧ b.length = s.heapCapacity ∧ inlineSgeCount < s.heapCapacity
  place : s.data = .null ∧ s.size = 0 ∨
    s.data = .inline_ ∧ 0 < s.size ∧ s.size ≤ inlineSgeCount ∨
    s.data = .heap ∧ inlineSgeCount < s.size ∧ s.size ≤ s.heapCapacity

theorem wf_empty : Wf ({} : SmallSglist α inlineSgeCount) :=
  ⟨List.length_replicate, .inl ⟨rfl, rfl⟩, .inl ⟨rfl, rfl⟩⟩

theorem Wf.length_heap (h : s.Wf) : (s.heap.getD []).length = s.heapCapacity := by
  rcases h.block with ⟨hb, hc⟩ | ⟨b, hb, hlen, -⟩
  · rw [hb, hc]
    rfl
  · rw [hb]
    exact hlen

theorem active_inline (h : s.data = .inline_) : s.active = s.inline_ := by rw [active, h]

theorem active_heap (h : s.data = .heap) : s.active = s.heap.getD [] := by rw [active, h]

theorem Wf.size_le_active (h : s.Wf) : s.size ≤ s.active.length := by
  rcases h.place with ⟨-, hz⟩ | ⟨hd, -, hle⟩ | ⟨hd, -, hle⟩
  · rw [hz]
    exact Nat.zero_le _
  · rw [active_inline hd, h.inline_length]
    exact hle
  · rw [active_heap hd, h.length_heap]
    exact hle

/-! ## The storage -/

theorem wf_clear (h : s.Wf) : s.clear.Wf := ⟨h.inline_length, h.block, .inl ⟨rfl, rfl⟩⟩

theorem reserve_of_le (h : count ≤ inlineSgeCount ∨ count ≤ s.heapCapacity) : s.reserve count = s := by
  by_cases hle : count ≤ inlineSgeCount
  · rw [reserve, if_pos hle]
  · rw [reserve, if_neg hle, if_neg (by omega)]

/-- The block `reserve` allocates, with the elements copied into it. -/
def freshBlock (s : SmallSglist α inlineSgeCount) (count : Nat) : List α :=
  copyN s.active s.size (List.replicate count default)

theorem Wf.length_freshBlock (h : s.Wf) (hc : s.size ≤ count) : (s.freshBlock count).length = count := by
  rw [freshBlock, length_copyN h.size_le_active (by rwa [List.length_replicate]), List.length_replicate]

theorem Wf.getElem?_freshBlock (h : s.Wf) (hi : i < s.size) :
    (s.freshBlock count)[i]? = s.active[i]? := getElem?_copyN hi h.size_le_active

theorem Wf.size_le_of_grow (h : s.Wf) (hn : inlineSgeCount < count) (hc : s.heapCapacity < count) :
    s.size ≤ count := by
  rcases h.place with ⟨-, hz⟩ | ⟨-, -, hle⟩ | ⟨-, -, hle⟩ <;> omega

/-- A block is allocated only for more elements than it replaces, and `data_` follows it. -/
theorem Wf.reserve_eq (h : s.Wf) (hn : inlineSgeCount < count) (hc : s.heapCapacity < count) :
    s.reserve count = { s with heap := some (s.freshBlock count), heapCapacity := count } := by
  rw [reserve, if_neg (by omega), if_pos hc]
  rcases h.place with ⟨hd, hz⟩ | ⟨hd, -, hle⟩ | ⟨hd, hlt, -⟩
  · simp [freshBlock, copyN, hd, hz]
  · simp [freshBlock, hd, Nat.not_lt.2 hle]
  · simp [freshBlock, hd, hlt]

theorem wf_reserve (h : s.Wf) : (s.reserve count).Wf := by
  by_cases hle : count ≤ inlineSgeCount ∨ count ≤ s.heapCapacity
  · rwa [reserve_of_le hle]
  · rw [not_or, Nat.not_le, Nat.not_le] at hle
    have hsize := h.size_le_of_grow hle.1 hle.2
    rw [h.reserve_eq hle.1 hle.2]
    exact ⟨h.inline_length, .inr ⟨_, rfl, h.length_freshBlock hsize, hle.1⟩,
      h.place.imp_right (.imp_right fun hp => ⟨hp.1, hp.2.1, hsize⟩)⟩

/-- Reserving touches neither `inline_` nor the size. -/
theorem reserve_frame : (s.reserve count).inline_ = s.inline_ ∧ (s.reserve count).size = s.size := by
  unfold reserve
  dsimp only
  split_ifs <;> exact ⟨rfl, rfl⟩

theorem le_heapCapacity_reserve (hn : inlineSgeCount < count) :
    count ≤ (s.reserve count).heapCapacity := by
  rw [reserve, if_neg (by omega)]
  by_cases hc : s.heapCapacity < count
  · exact Nat.le_of_eq (by rw [if_pos hc])
  · rw [if_neg hc]
    omega

theorem wf_resize (h : s.Wf) : (s.resize count).Wf := by
  by_cases hz : count = 0
  · rw [resize, if_pos hz]
    exact wf_clear h
  have hr : (s.reserve count).Wf := wf_reserve h
  rw [resize, if_neg hz]
  by_cases hle : count ≤ inlineSgeCount
  · refine ⟨?_, hr.block, .inr (.inl ⟨if_pos hle, Nat.pos_of_ne_zero hz, hle⟩)⟩
    dsimp only
    split_ifs with hm
    · have hact := h.size_le_active
      rw [length_copyN (by omega) (by rw [hr.inline_length]; omega), hr.inline_length]
    · exact hr.inline_length
  · rw [Nat.not_le] at hle
    refine ⟨?_, hr.block, .inr (.inr ⟨if_neg (by omega), hle, le_heapCapacity_reserve hle⟩)⟩
    dsimp only
    rw [if_neg (fun hm => absurd hm.1 (by omega))]
    exact hr.inline_length

theorem size_resize : (s.resize count).size = count := by
  by_cases hz : count = 0
  · rw [resize, if_pos hz, hz]
    rfl
  · rw [resize, if_neg hz]

theorem growTo_frame : (s.growTo count).inline_ = s.inline_ ∧ (s.growTo count).size = s.size := by
  unfold growTo
  dsimp only
  split_ifs <;> first | exact reserve_frame | exact ⟨rfl, rfl⟩

theorem wf_growTo (h : s.Wf) : (s.growTo count).Wf := by
  unfold growTo
  dsimp only
  split_ifs <;> first | exact wf_reserve h | exact h

theorem le_heapCapacity_growTo (hn : inlineSgeCount < count) : count ≤ (s.growTo count).heapCapacity := by
  unfold growTo
  dsimp only
  by_cases hg : inlineSgeCount < count ∧ s.heapCapacity < count
  · rw [if_pos hg]
    have hmax := Nat.le_max_left count (if s.heapCapacity = 0 then inlineSgeCount * 2 else s.heapCapacity * 2)
    exact Nat.le_trans hmax (le_heapCapacity_reserve (Nat.lt_of_lt_of_le hn hmax))
  · rw [if_neg hg]
    omega

/-- Where `append_uninitialized` leaves `data_`. -/
theorem Wf.data_append (hn : 0 < inlineSgeCount) (h : s.Wf) :
    s.appendUninitialized.data = if inlineSgeCount < s.size + 1 then .heap else .inline_ := by
  have hg : (s.growTo (s.size + 1)).Wf := wf_growTo h
  have hsize : (s.growTo (s.size + 1)).size = s.size := growTo_frame.2
  rw [appendUninitialized]
  dsimp only
  rcases hg.place with ⟨hd, hz⟩ | ⟨hd, -, hle⟩ | ⟨hd, hlt, -⟩
  · rw [if_pos hd, if_neg (by omega)]
  · rw [hd, if_neg Storage.noConfusion]
  · rw [hd, if_neg Storage.noConfusion, if_pos (by omega), if_pos (by omega)]

theorem wf_appendUninitialized (hn : 0 < inlineSgeCount) (h : s.Wf) : s.appendUninitialized.Wf := by
  have hg : (s.growTo (s.size + 1)).Wf := wf_growTo h
  refine ⟨hg.inline_length, hg.block, .inr ?_⟩
  rw [h.data_append hn]
  by_cases hgt : inlineSgeCount < s.size + 1
  · exact .inr ⟨if_pos hgt, hgt, le_heapCapacity_growTo hgt⟩
  · exact .inl ⟨if_neg hgt, Nat.succ_pos _, Nat.not_lt.1 hgt⟩

theorem size_write : (s.write i v).size = s.size := by
  unfold write
  split <;> rfl

theorem wf_write (h : s.Wf) : (s.write i v).Wf := by
  unfold write
  split
  · exact ⟨by simpa using h.inline_length, h.block, h.place⟩
  · refine ⟨h.inline_length, h.block.imp (fun hb => ⟨by rw [hb.1]; rfl, hb.2⟩) ?_, h.place⟩
    rintro ⟨b, hb, hlen, hc⟩
    exact ⟨b.set i v, by rw [hb]; rfl, by rw [List.length_set, hlen], hc⟩
  · exact h
  · exact h

/-! ## The elements -/

/-- Where the elements are once there is room for `count` of them: a step from `inline_` to a block that is
already there finds whatever the block holds. -/
def carried (s : SmallSglist α inlineSgeCount) (count : Nat) : List α :=
  if s.data = .inline_ ∧ inlineSgeCount < count ∧ count ≤ s.heapCapacity then s.heap.getD []
  else s.active

theorem Wf.carried_of_heap (h : s.Wf) (hc : count ≤ s.heapCapacity) (hn : inlineSgeCount < count)
    (hi : i < s.size) : (s.heap.getD [])[i]? = (s.carried count)[i]? := by
  rcases h.place with ⟨-, hz⟩ | ⟨hd, -, -⟩ | ⟨hd, -, -⟩
  · omega
  · rw [carried, if_pos ⟨hd, hn, hc⟩]
  · rw [carried, if_neg (fun hs => absurd (hd.symm.trans hs.1) Storage.noConfusion), active_heap hd]

theorem carried_of_le (hn : count ≤ inlineSgeCount) : s.carried count = s.active := by
  rw [carried, if_neg (by omega)]

theorem carried_of_lt (hc : s.heapCapacity < count) : s.carried count = s.active := by
  rw [carried, if_neg (by omega)]

theorem Wf.getElem?_reserve (h : s.Wf) (hn : inlineSgeCount < count) (hi : i < s.size) :
    ((s.reserve count).heap.getD [])[i]? = (s.carried count)[i]? := by
  by_cases hc : s.heapCapacity < count
  · rw [h.reserve_eq hn hc, carried_of_lt hc]
    exact h.getElem?_freshBlock hi
  · rw [reserve_of_le (.inr (Nat.not_lt.1 hc))]
    exact h.carried_of_heap (Nat.not_lt.1 hc) hn hi

theorem Wf.getElem?_growTo (h : s.Wf) (hn : inlineSgeCount < count) (hi : i < s.size) :
    ((s.growTo count).heap.getD [])[i]? = (s.carried count)[i]? := by
  unfold growTo
  dsimp only
  by_cases hc : s.heapCapacity < count
  · have hmax := Nat.le_max_left count (if s.heapCapacity = 0 then inlineSgeCount * 2 else s.heapCapacity * 2)
    rw [if_pos ⟨hn, hc⟩, h.getElem?_reserve (Nat.lt_of_lt_of_le hn hmax) hi, carried_of_lt hc,
      carried_of_lt (Nat.lt_of_lt_of_le hc hmax)]
  · rw [if_neg (fun hg => hc hg.2)]
    exact h.carried_of_heap (Nat.not_lt.1 hc) hn hi

/-- What a client reads after `reserve`. -/
theorem Wf.read_reserve (h : s.Wf) (hi : i < s.size) : (s.reserve count).read i = s.read i := by
  by_cases hle : count ≤ inlineSgeCount ∨ count ≤ s.heapCapacity
  · rw [reserve_of_le hle]
  · rw [not_or, Nat.not_le, Nat.not_le] at hle
    have heq := h.reserve_eq hle.1 hle.2
    rcases h.place with ⟨-, hz⟩ | ⟨hd, -, -⟩ | ⟨hd, -, -⟩
    · omega
    · rw [read, read, active_inline hd, active_inline (by rw [heq]; exact hd), heq]
    · rw [read, read, active_heap (by rw [heq]; exact hd), heq]
      exact h.getElem?_freshBlock hi

/-- What a client reads after `resize`, of the elements that were there and are kept. -/
theorem Wf.read_resize (h : s.Wf) (hi : i < s.size) (hc : i < count) :
    (s.resize count).read i = (s.carried count)[i]? := by
  have hact := h.size_le_active
  rw [resize, if_neg (by omega)]
  by_cases hle : count ≤ inlineSgeCount
  · rw [read, active_inline (if_pos hle), carried_of_le hle]
    dsimp only
    split_ifs with hm
    · exact getElem?_copyN (by omega) (by omega)
    · -- `data_` is on `inline_` already, and `reserve` leaves it alone
      have hinl : s.data = .inline_ := by
        rcases h.place with ⟨-, hz⟩ | ⟨hd, -⟩ | ⟨hd, -⟩
        · omega
        · exact hd
        · exact absurd ⟨hle, by rw [usesHeap, hd]⟩ hm
      rw [reserve_frame.1, active_inline hinl]
  · rw [read, active_heap (if_neg hle)]
    exact h.getElem?_reserve (Nat.not_le.1 hle) hi

theorem read_write (hi : i < s.active.length) (j : Nat) :
    (s.write i v).read j = if i = j then some v else s.read j := by
  unfold write
  split
  · rename_i hd
    rw [active_inline hd] at hi
    rw [read, read, active_inline hd, active_inline (by exact hd), List.getElem?_set]
    simp [hi]
  · rename_i hd
    rw [active_heap hd] at hi
    rw [read, read, active_heap hd, active_heap (by exact hd)]
    cases hb : s.heap with
    | none => simp [hb] at hi
    | some b =>
      rw [hb, Option.getD_some] at hi
      simp [List.getElem?_set, hi]
  · rename_i hd
    rw [active, hd] at hi
    exact absurd hi (Nat.not_lt_zero i)
  · rename_i hd
    rw [active, hd] at hi
    exact absurd hi (Nat.not_lt_zero i)

theorem Wf.read_appendUninitialized (hn : 0 < inlineSgeCount) (h : s.Wf) (hi : i < s.size) :
    s.appendUninitialized.read i = (s.carried (s.size + 1))[i]? := by
  have hdata := h.data_append hn
  by_cases hgt : inlineSgeCount < s.size + 1
  · rw [if_pos hgt] at hdata
    rw [read, active_heap hdata]
    exact h.getElem?_growTo hgt hi
  · rw [if_neg hgt] at hdata
    have hinl : s.data = .inline_ := by
      rcases h.place with ⟨-, hz⟩ | ⟨hd, -⟩ | ⟨-, hlt, -⟩
      · omega
      · exact hd
      · omega
    rw [read, active_inline hdata, carried_of_le (Nat.not_lt.1 hgt), active_inline hinl]
    exact congrArg (·[i]?) growTo_frame.1

/-- What a client reads after `append_uninitialized` and the write of its element. -/
theorem Wf.read_append (hn : 0 < inlineSgeCount) (h : s.Wf) (hi : i ≤ s.size) :
    (s.append v).read i = if s.size = i then some v else (s.carried (s.size + 1))[i]? := by
  have hroom : s.size < s.appendUninitialized.active.length :=
    (wf_appendUninitialized hn h).size_le_active
  rw [append, read_write hroom]
  by_cases heq : s.size = i
  · rw [if_pos heq, if_pos heq]
  · rw [if_neg heq, if_neg heq, h.read_appendUninitialized hn (by omega)]

/-! ## Beside the plain array -/

/-- The size that `resize` or `append_uninitialized` asks for. -/
def Op.target (size : Nat) : Op α → Nat
  | .resize count => count
  | .append _ => size + 1
  | .reserve _ | .write _ _ | .clear => 0

/-- The step leaves `inline_` for a block that is already there. -/
def Paired.Switches (p : Paired α inlineSgeCount) (op : Op α) : Prop :=
  p.sglist.data = .inline_ ∧ inlineSgeCount < op.target p.sglist.size ∧
    op.target p.sglist.size ≤ p.sglist.heapCapacity

instance (p : Paired α inlineSgeCount) (op : Op α) : Decidable (p.Switches op) :=
  inferInstanceAs (Decidable (_ ∧ _ ∧ _))

/-- If the step leaves `inline_` for a block that is already there, the block holds every element that was
written. -/
def Paired.Retains (p : Paired α inlineSgeCount) (op : Op α) : Prop :=
  p.Switches op → ∀ (i : Nat) (v : α), p.array[i]? = some (some v) → (p.sglist.heap.getD [])[i]? = some v

/-- Every element that was written, and not removed since, is there. -/
def Paired.Keeps (p : Paired α inlineSgeCount) : Prop :=
  ∀ (i : Nat) (v : α), p.array[i]? = some (some v) → p.sglist.read i = some v

/-- The small sglist is the plain array: its size, its written elements, an element behind every index below
the size, and storage as `uses_heap()` and `capacity()` describe it. -/
structure Paired.Agrees (p : Paired α inlineSgeCount) : Prop where
  size : p.sglist.size = p.array.length
  keeps : p.Keeps
  stored : ∀ i, i < p.sglist.size → (p.sglist.read i).isSome = true
  usesHeap : 0 < p.sglist.size → (p.sglist.usesHeap = true ↔ p.sglist.heap = some p.sglist.active ∧
    p.sglist.data = .heap)
  capacity : 0 < p.sglist.size → p.sglist.capacity = p.sglist.active.length

/-- What every operation keeps, also one that loses elements. -/
structure Paired.Sized (p : Paired α inlineSgeCount) : Prop where
  wf : p.sglist.Wf
  size : p.sglist.size = p.array.length

theorem Paired.Sized.agrees (h : p.Sized) (hk : p.Keeps) : p.Agrees := by
  refine ⟨h.size, hk, fun i hi => ?_, fun hpos => ?_, fun hpos => ?_⟩
  · rw [read, List.getElem?_eq_getElem (Nat.lt_of_lt_of_le hi h.wf.size_le_active)]
    rfl
  · rcases h.wf.place with ⟨-, hz⟩ | ⟨hd, -⟩ | ⟨hd, -, hle⟩
    · omega
    · rw [SmallSglist.usesHeap, hd]
      simp
    · have hblock : p.sglist.heap = some p.sglist.active := by
        rcases h.wf.block with ⟨-, hc⟩ | ⟨b, hb, -⟩
        · omega
        · rw [active_heap hd, hb, Option.getD_some]
      rw [SmallSglist.usesHeap, hd]
      simp [← hblock]
  · rcases h.wf.place with ⟨-, hz⟩ | ⟨hd, -⟩ | ⟨hd, -⟩
    · omega
    · rw [SmallSglist.capacity, SmallSglist.usesHeap, hd, active_inline hd, h.wf.inline_length]
      rfl
    · rw [SmallSglist.capacity, SmallSglist.usesHeap, hd, active_heap hd, h.wf.length_heap]
      rfl

theorem Paired.Sized.step (hn : 0 < inlineSgeCount) (h : p.Sized)
    (hs : (paired α inlineSgeCount).step p op = some q) : q.Sized := by
  obtain ⟨s, hst, rfl⟩ := Option.map_eq_some_iff.1 hs
  have hsize := h.size
  clear hs
  cases op with
  | reserve count =>
    obtain rfl := Option.some.inj hst
    exact ⟨wf_reserve h.wf, reserve_frame.2.trans hsize⟩
  | resize count =>
    obtain rfl := Option.some.inj hst
    refine ⟨wf_resize h.wf, ?_⟩
    rw [size_resize, Op.apply, List.length_append, List.length_take, List.length_replicate]
    omega
  | append v =>
    obtain rfl := Option.some.inj hst
    refine ⟨wf_write (wf_appendUninitialized hn h.wf), ?_⟩
    rw [append, size_write, Op.apply, List.length_append, List.length_singleton, ← hsize]
    rfl
  | write i v =>
    obtain ⟨-, rfl⟩ : i < p.sglist.size ∧ p.sglist.write i v = s := by
      simpa only [SmallSglist.step, Option.ite_none_right_eq_some, Option.some.injEq] using hst
    refine ⟨wf_write h.wf, ?_⟩
    rw [size_write, hsize, Op.apply, List.length_set]
  | clear =>
    obtain rfl := Option.some.inj hst
    exact ⟨wf_clear h.wf, rfl⟩

/-- The written elements are carried over exactly if a block that is already there holds them. -/
theorem Paired.Sized.carried_iff (h : p.Sized) (hk : p.Keeps) :
    (∀ (i : Nat) (v : α), i < op.target p.sglist.size → p.array[i]? = some (some v) →
      (p.sglist.carried (op.target p.sglist.size))[i]? = some v) ↔ p.Retains op := by
  unfold Paired.Retains
  by_cases hsw : p.Switches op
  · have hcar : p.sglist.carried (op.target p.sglist.size) = p.sglist.heap.getD [] := if_pos hsw
    rw [hcar]
    refine ⟨fun hall _ i v hi => hall i v ?_ hi, fun hret i v _ hi => hret hsw i v hi⟩
    obtain ⟨hlen, -⟩ := List.getElem?_eq_some_iff.1 hi
    rw [← h.size] at hlen
    rcases h.wf.place with ⟨hd, -⟩ | ⟨-, -, hle⟩ | ⟨hd, -⟩
    · cases hd.symm.trans hsw.1
    · exact Nat.lt_of_lt_of_le hlen (Nat.le_trans hle (Nat.le_of_lt hsw.2.1))
    · cases hd.symm.trans hsw.1
  · have hcar : p.sglist.carried (op.target p.sglist.size) = p.sglist.active := if_neg hsw
    rw [hcar]
    exact ⟨fun _ hsw' => absurd hsw' hsw, fun _ i v _ hi => hk i v hi⟩

/-- The step keeps every written element exactly if it `Retains` them. -/
theorem Paired.Sized.keeps_iff (hn : 0 < inlineSgeCount) (h : p.Sized) (hk : p.Keeps)
    (hs : (paired α inlineSgeCount).step p op = some q) : q.Keeps ↔ p.Retains op := by
  obtain ⟨s, hst, rfl⟩ := Option.map_eq_some_iff.1 hs
  have hsize := h.size
  have hlt : ∀ {i : Nat} {w : α}, p.array[i]? = some (some w) → i < p.sglist.size := fun hi =>
    hsize ▸ (List.getElem?_eq_some_iff.1 hi).1
  have hzero : op.target p.sglist.size = 0 → p.Retains op := fun h0 hsw => absurd hsw.2.1 (by omega)
  clear hs
  cases op with
  | reserve count =>
    obtain rfl := Option.some.inj hst
    exact iff_of_true (fun i w hi => (h.wf.read_reserve (hlt hi)).trans (hk i w hi)) (hzero rfl)
  | resize count =>
    obtain rfl := Option.some.inj hst
    rw [← h.carried_iff hk]
    have hread : ∀ {i : Nat} {w : α}, i < count → p.array[i]? = some (some w) →
        (p.sglist.resize count).read i = (p.sglist.carried count)[i]? := fun hi hw =>
      h.wf.read_resize (hlt hw) hi
    refine ⟨fun hq i w hi hw => ?_, fun hc i w hw => ?_⟩
    · exact (hread hi hw).symm.trans (hq i w (getElem?_resized.2 ⟨hi, hw⟩))
    · obtain ⟨hi, hw⟩ := getElem?_resized.1 hw
      exact (hread hi hw).trans (hc i w hi hw)
  | append v =>
    obtain rfl := Option.some.inj hst
    rw [← h.carried_iff hk]
    have hread : ∀ {i : Nat} {w : α}, p.array[i]? = some (some w) →
        (p.sglist.append v).read i = (p.sglist.carried (p.sglist.size + 1))[i]? := fun hw => by
      have hi := hlt hw
      rw [h.wf.read_append hn (Nat.le_of_lt hi), if_neg (by omega)]
    refine ⟨fun hq i w _ hw => ?_, fun hc i w hw => ?_⟩
    · exact (hread hw).symm.trans (hq i w (getElem?_appended.2 (.inr hw)))
    · rcases getElem?_appended.1 hw with ⟨hi, rfl⟩ | hw
      · have hlast : p.sglist.size = i := hsize.trans hi.symm
        exact (h.wf.read_append hn (Nat.le_of_eq hlast.symm)).trans (if_pos hlast)
      · exact (hread hw).trans (hc i w (Nat.lt_succ_of_lt (hlt hw)) hw)
  | write j v =>
    obtain ⟨hj, rfl⟩ : j < p.sglist.size ∧ p.sglist.write j v = s := by
      simpa only [SmallSglist.step, Option.ite_none_right_eq_some, Option.some.injEq] using hst
    refine iff_of_true (fun i w hi => ?_) (hzero rfl)
    rw [read_write (Nat.lt_of_lt_of_le hj h.wf.size_le_active)]
    simp only [Op.apply, List.getElem?_set, hsize ▸ hj, if_true] at hi
    split_ifs at hi ⊢ with heq
    · exact Option.some.inj hi
    · exact hk i w hi
  | clear =>
    obtain rfl := Option.some.inj hst
    exact iff_of_true (fun i w hi => by simp [Op.apply] at hi) (hzero rfl)

/-- A small sglist is the plain growable array, after every prefix of a history, exactly if no step leaves
`inline_` for a block that is already there and does not hold the written elements. -/
theorem small_sglist_agrees_iff (hn : 0 < inlineSgeCount) {ops : List (Op α)}
    (hr : (paired α inlineSgeCount).run {} ops = some p) :
    (∀ pre q, pre <+: ops → (paired α inlineSgeCount).run {} pre = some q → q.Agrees) ↔
      (paired α inlineSgeCount).Meets Paired.Retains {} ops := by
  have hinit : Paired.Sized ({} : Paired α inlineSgeCount) := ⟨wf_empty, rfl⟩
  refine StepSystem.always_iff_meets (I := Paired.Sized) (fun p op q hp _ hs => hp.step hn hs)
    (fun p op q hp ha hs => ⟨fun hq => (hp.keeps_iff hn ha.keeps hs).1 hq.keeps, fun hc => ?_⟩) hr hinit
    (hinit.agrees fun i v hi => by simp at hi)
  exact (hp.step hn hs).agrees ((hp.keeps_iff hn ha.keeps hs).2 hc)

/-- Three elements through an inline capacity of two: the block is allocated as `inline_` fills up. -/
def spillOnce : List (Op Nat) := [.append 1, .append 2, .append 3]

theorem small_sglist_agrees_spillOnce : ((paired Nat 2).after {} spillOnce).Agrees := by
  have hr := StepSystem.run_after
    (show ((paired Nat 2).run {} spillOnce).isSome = true by decide)
  refine (small_sglist_agrees_iff (by decide) hr).2 ?_ spillOnce _ (List.prefix_refl _) hr
  have hm : (paired Nat 2).Meets (fun p op => ¬ p.Switches op) {} spillOnce := by decide
  exact hm.mono fun p op hnot hsw => absurd hsw hnot

/-- Room is reserved for nine elements before nine are appended. -/
def reserveThenAppend : List (Op Nat) :=
  [.reserve 9, .append 1, .append 2, .append 3, .append 4, .append 5, .append 6, .append 7, .append 8,
    .append 9]

/-- The ninth element moves the list into the reserved block, which holds none of the first eight. -/
theorem not_small_sglist_agrees :
    ¬ ∀ (ops : List (Op Nat)) (p : Paired Nat 8), (paired Nat 8).run {} ops = some p → p.Agrees := by
  intro h
  have hr := StepSystem.run_after
    (show ((paired Nat 8).run {} reserveThenAppend).isSome = true by decide)
  have hkeep := (h reserveThenAppend _ hr).keeps 0 1 (by decide)
  exact absurd hkeep (by decide)

end SmallSglist

end RdmaOnAsio
