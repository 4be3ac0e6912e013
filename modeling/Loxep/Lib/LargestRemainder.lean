import Loxep.Lib.Rounding
import Mathlib.Data.List.Sort
import Mathlib.Algebra.Order.BigOperators.Group.List

/-!
# Largest-remainder apportionment

Units are spread over weights in proportion. Every share is rounded down first, and the units
left over go one each to the largest remainders, the earlier place winning a tie. The shares sum
to the units exactly, and of two weights the first gets its share rounded half up.
-/

namespace Loxep

namespace LargestRemainder

def floors (m : ℕ) (ws : List ℕ) : List ℕ := ws.map fun w => m * w / ws.sum

def remainders (m : ℕ) (ws : List ℕ) : List ℕ := ws.map fun w => m * w % ws.sum

/-- A larger remainder comes first, and an earlier place among equal ones. -/
def Before (a b : ℕ × ℕ) : Prop := b.1 < a.1 ∨ (a.1 = b.1 ∧ a.2 ≤ b.2)

instance : DecidableRel Before := fun _ _ => inferInstanceAs (Decidable (_ ∨ _))

/-- The positive remainders with their places, in the order they are served. -/
def order (rs : List ℕ) : List (ℕ × ℕ) :=
  (rs.zipIdx.filter fun entry => 0 < entry.1).insertionSort Before

/-- One unit to each place in turn while any is left. -/
def handOut : List ℕ → List (ℕ × ℕ) → ℕ → List ℕ
  | shares, [], _ => shares
  | shares, entry :: rest, left =>
    if left = 0 then shares else handOut (shares.modify entry.2 (· + 1)) rest (left - 1)

def apportion (m : ℕ) (ws : List ℕ) : List ℕ :=
  handOut (floors m ws) (order (remainders m ws)) (m - (floors m ws).sum)

section Sum

variable {m : ℕ} {ws : List ℕ}

theorem length_handOut : ∀ (shares : List ℕ) (entries : List (ℕ × ℕ)) (left : ℕ),
    (handOut shares entries left).length = shares.length
  | _, [], _ => rfl
  | shares, entry :: rest, left => by
    unfold handOut
    split_ifs
    · rfl
    · rw [length_handOut, List.length_modify]

theorem length_apportion : (apportion m ws).length = ws.length := by
  rw [apportion, length_handOut, floors, List.length_map]

theorem sum_modify_succ : ∀ {l : List ℕ} {i : ℕ}, i < l.length →
    (l.modify i (· + 1)).sum = l.sum + 1
  | a :: l, 0, _ => by
    rw [List.modify_zero_cons, List.sum_cons, List.sum_cons]
    omega
  | a :: l, i + 1, h => by
    rw [List.modify_succ_cons, List.sum_cons, List.sum_cons,
      sum_modify_succ (Nat.lt_of_succ_lt_succ h)]
    omega

theorem sum_handOut : ∀ {shares : List ℕ} {entries : List (ℕ × ℕ)} {left : ℕ},
    (∀ entry ∈ entries, entry.2 < shares.length) → left ≤ entries.length →
      (handOut shares entries left).sum = shares.sum + left
  | shares, [], left, _, hle => by
    obtain rfl : left = 0 := by simpa using hle
    rfl
  | shares, entry :: rest, left, hlt, hle => by
    obtain ⟨he, hrest⟩ := List.forall_mem_cons.1 hlt
    unfold handOut
    split_ifs with hzero
    · rw [hzero, Nat.add_zero]
    · rw [List.length_cons] at hle
      rw [sum_handOut (by simpa using hrest) (by omega), sum_modify_succ he]
      omega

theorem sum_map_div_mod (m d : ℕ) : ∀ ws : List ℕ,
    d * (ws.map fun w => m * w / d).sum + (ws.map fun w => m * w % d).sum = m * ws.sum
  | [] => rfl
  | w :: ws => by
    have ih := sum_map_div_mod m d ws
    have hw := Nat.div_add_mod (m * w) d
    simp only [List.map_cons, List.sum_cons, Nat.mul_add]
    omega

theorem sum_floors_remainders :
    ws.sum * (floors m ws).sum + (remainders m ws).sum = m * ws.sum :=
  sum_map_div_mod m ws.sum ws

theorem floors_le (hpos : 0 < ws.sum) : (floors m ws).sum ≤ m := by
  have hsum := @sum_floors_remainders m ws
  refine Nat.le_of_mul_le_mul_left ?_ hpos
  rw [Nat.mul_comm ws.sum m]
  omega

theorem sum_remainders (hpos : 0 < ws.sum) :
    (remainders m ws).sum = ws.sum * (m - (floors m ws).sum) := by
  have hsum := @sum_floors_remainders m ws
  have hle := @floors_le m ws hpos
  rw [Nat.mul_sub, Nat.mul_comm ws.sum m]
  omega

theorem length_order (rs : List ℕ) : (order rs).length = (rs.filter (0 < ·)).length := by
  have hmap : ∀ (l : List ℕ) (k : ℕ), ((l.zipIdx k).filter fun entry => 0 < entry.1).length =
      (l.filter (0 < ·)).length := by
    intro l
    induction l with
    | nil => exact fun _ => rfl
    | cons a l ih =>
      intro k
      rw [List.zipIdx_cons, List.filter_cons, List.filter_cons]
      split_ifs
      · rw [List.length_cons, List.length_cons, ih]
      · exact ih _
  rw [order, List.length_insertionSort]
  exact hmap rs 0

theorem sum_le_positive {d : ℕ} : ∀ {rs : List ℕ}, (∀ r ∈ rs, r < d) →
    rs.sum ≤ d * (rs.filter (0 < ·)).length
  | [], _ => Nat.zero_le _
  | r :: rs, h => by
    obtain ⟨hr, hrs⟩ := List.forall_mem_cons.1 h
    have ih := sum_le_positive hrs
    rw [List.sum_cons, List.filter_cons]
    split_ifs with hpos
    · rw [List.length_cons, Nat.mul_add, Nat.mul_one]
      omega
    · have : r = 0 := by simpa using hpos
      omega

theorem left_le_order (hpos : 0 < ws.sum) :
    m - (floors m ws).sum ≤ (order (remainders m ws)).length := by
  rw [length_order]
  refine Nat.le_of_mul_le_mul_left ?_ hpos
  rw [← sum_remainders hpos]
  refine sum_le_positive fun r hr => ?_
  obtain ⟨w, -, rfl⟩ := List.mem_map.1 hr
  exact Nat.mod_lt _ hpos

theorem place_lt {rs : List ℕ} {entry : ℕ × ℕ} (h : entry ∈ order rs) :
    entry.2 < rs.length := by
  rw [order, List.mem_insertionSort, List.mem_filter] at h
  have := List.snd_lt_of_mem_zipIdx h.1
  omega

theorem sum_apportion (hpos : 0 < ws.sum) : (apportion m ws).sum = m := by
  rw [apportion, sum_handOut _ (left_le_order hpos)]
  · have := @floors_le m ws hpos
    omega
  · intro entry h
    have := place_lt h
    rw [remainders, List.length_map] at this
    rwa [floors, List.length_map]

theorem apportion_zero : apportion 0 ws = List.replicate ws.length 0 := by
  have hfloors : floors 0 ws = List.replicate ws.length 0 := by
    simp [floors]
  rw [apportion, hfloors]
  cases order (remainders 0 ws) <;> simp [handOut]

end Sum

section Two

variable {m a b : ℕ}

theorem order_pair {r s : ℕ} (hr : 0 < r) (hs : 0 < s) :
    order [r, s] = if s ≤ r then [(r, 0), (s, 1)] else [(s, 1), (r, 0)] := by
  have hbefore : Before (r, 0) (s, 1) ↔ s ≤ r := by
    unfold Before
    omega
  simp only [order, List.zipIdx_cons, List.zipIdx_nil, List.filter_cons, hr, hs, decide_true,
    if_true, List.filter_nil, List.insertionSort_cons, List.insertionSort_nil, List.orderedInsert,
    Nat.zero_add, hbefore]

theorem remainders_pair (hpos : 0 < a + b) :
    (m * a % (a + b) = 0 ∧ m * b % (a + b) = 0 ∧ m = m * a / (a + b) + m * b / (a + b)) ∨
      (m * a % (a + b) + m * b % (a + b) = a + b ∧
        m = m * a / (a + b) + m * b / (a + b) + 1) := by
  have ha := Nat.div_add_mod (m * a) (a + b)
  have hb := Nat.div_add_mod (m * b) (a + b)
  have hra := Nat.mod_lt (m * a) hpos
  have hrb := Nat.mod_lt (m * b) hpos
  generalize m * a / (a + b) = q at ha ⊢
  generalize m * b / (a + b) = q' at hb ⊢
  generalize m * a % (a + b) = r at ha hra ⊢
  generalize m * b % (a + b) = r' at hb hrb ⊢
  have hsum : (a + b) * (q + q') + (r + r') = (a + b) * m := by
    rw [Nat.mul_add, Nat.mul_comm (a + b) m, Nat.mul_add m]
    omega
  rcases Nat.lt_or_ge m (q + q' + 1) with hlt | hge
  · have hle : (a + b) * m ≤ (a + b) * (q + q') := Nat.mul_le_mul_left _ (by omega)
    refine .inl ⟨by omega, by omega, Nat.eq_of_mul_eq_mul_left hpos (by omega)⟩
  · obtain ⟨k, rfl⟩ := Nat.exists_eq_add_of_le hge
    have hexp : (a + b) * (q + q' + 1 + k) = (a + b) * (q + q') + (a + b) + (a + b) * k := by ring
    rcases k with _ | k
    · exact .inr ⟨by omega, by omega⟩
    · have : (a + b) * 1 ≤ (a + b) * (k + 1) := Nat.mul_le_mul_left _ (by omega)
      omega

theorem apportion_pair (hpos : 0 < a + b) : apportion m [a, b] =
    [Rounding.halfUp (m * a) (a + b), m - Rounding.halfUp (m * a) (a + b)] := by
  have hsum : [a, b].sum = a + b := by simp
  have hfloors : floors m [a, b] = [m * a / (a + b), m * b / (a + b)] := by
    simp [floors, hsum]
  have hremainders : remainders m [a, b] = [m * a % (a + b), m * b % (a + b)] := by
    simp [remainders, hsum]
  have hfsum : (floors m [a, b]).sum = m * a / (a + b) + m * b / (a + b) := by
    rw [hfloors]
    simp
  have hcases := @remainders_pair m a b hpos
  have hra := Nat.mod_lt (m * a) hpos
  have hrb := Nat.mod_lt (m * b) hpos
  rw [apportion, hfsum, hfloors, hremainders, Rounding.halfUp]
  generalize m * a / (a + b) = q at hcases ⊢
  generalize m * b / (a + b) = q' at hcases ⊢
  generalize m * a % (a + b) = r at hcases hra ⊢
  generalize m * b % (a + b) = r' at hcases hrb ⊢
  rcases hcases with ⟨rfl, rfl, rfl⟩ | ⟨hr, rfl⟩
  · rw [if_neg (by omega), show q + q' - q = q' by omega]
    rfl
  · rw [order_pair (by omega) (by omega), show q + q' + 1 - (q + q') = 1 by omega]
    by_cases hle : r' ≤ r
    · rw [if_pos hle, if_pos (by omega), show q + q' + 1 - (q + 1) = q' by omega]
      rfl
    · rw [if_neg hle, if_neg (by omega), show q + q' + 1 - q = q' + 1 by omega]
      rfl

end Two

section Fair

variable {m : ℕ} {ws : List ℕ} {xs ys : List ℤ}

/-- What a share misses of its exact value, in parts of the total weight. -/
def misses (m : ℕ) (ws : List ℕ) (xs : List ℤ) : List ℤ :=
  List.zipWith (fun (w : ℕ) (x : ℤ) => m * w - ws.sum * x) ws xs

/-- The shares make up the whole, and no two miss their exact values by more than a unit apart,
the earlier one never by a whole unit more. -/
structure Fair (m : ℕ) (ws : List ℕ) (xs : List ℤ) : Prop where
  length : xs.length = ws.length
  sum : xs.sum = m
  close : (misses m ws xs).Pairwise fun a b : ℤ => a - b < ws.sum ∧ b - a ≤ ws.sum

theorem exists_lt_of_sum_le : ∀ {xs ys : List ℤ}, xs.length = ys.length → xs.sum ≤ ys.sum →
    xs ≠ ys → ∃ i, ∃ (h : i < xs.length) (h' : i < ys.length), xs[i] < ys[i]
  | [], [], _, _, hne => absurd rfl hne
  | x :: xs, y :: ys, hlen, hsum, hne => by
    rw [List.sum_cons, List.sum_cons] at hsum
    by_cases hlt : x < y
    · exact ⟨0, Nat.succ_pos _, Nat.succ_pos _, hlt⟩
    · have hrest : xs ≠ ys := by
        rintro rfl
        have hxy : x = y := by omega
        exact hne (by rw [hxy])
      obtain ⟨i, h, h', hi⟩ := exists_lt_of_sum_le (Nat.succ.inj hlen) (by omega) hrest
      exact ⟨i + 1, Nat.succ_lt_succ h, Nat.succ_lt_succ h', hi⟩

variable {i j : ℕ}

theorem Fair.apart (h : Fair m ws xs) (hi : i < ws.length) (hj : j < ws.length)
    (hxi : i < xs.length) (hxj : j < xs.length) (hij : i < j) :
    (m * ws[i] - ws.sum * xs[i] : ℤ) - (m * ws[j] - ws.sum * xs[j]) < ws.sum ∧
      (m * ws[j] - ws.sum * xs[j] : ℤ) - (m * ws[i] - ws.sum * xs[i]) ≤ ws.sum := by
  have hpair := List.pairwise_iff_getElem.1 h.close i j
    (by simpa [misses] using ⟨hi, hxi⟩) (by simpa [misses] using ⟨hj, hxj⟩) hij
  simpa [misses] using hpair

theorem Fair.unique (hx : Fair m ws xs) (hy : Fair m ws ys) : xs = ys := by
  by_contra hne
  have hlen : xs.length = ys.length := hx.length.trans hy.length.symm
  have hsum : xs.sum = ys.sum := hx.sum.trans hy.sum.symm
  obtain ⟨i, hxi, hyi, hi⟩ := exists_lt_of_sum_le hlen hsum.le hne
  obtain ⟨j, hyj, hxj, hj⟩ := exists_lt_of_sum_le hlen.symm hsum.ge (Ne.symm hne)
  have hwi : i < ws.length := hx.length ▸ hxi
  have hwj : j < ws.length := hx.length ▸ hxj
  have hmore : (ws.sum : ℤ) ≤ ws.sum * (ys[i] - xs[i]) :=
    le_mul_of_one_le_right (Nat.cast_nonneg _) (by omega)
  have hless : (ws.sum : ℤ) ≤ ws.sum * (xs[j] - ys[j]) :=
    le_mul_of_one_le_right (Nat.cast_nonneg _) (by omega)
  rcases lt_trichotomy i j with hij | rfl | hji
  · have h₁ := (hx.apart hwi hwj hxi hxj hij).1
    have h₂ := (hy.apart hwi hwj hyi hyj hij).2
    linarith
  · omega
  · have h₁ := (hx.apart hwj hwi hxj hxi hji).2
    have h₂ := (hy.apart hwj hwi hyj hyi hji).1
    linarith

instance : Std.Total Before := ⟨fun a b => by unfold Before; omega⟩

instance : IsTrans (ℕ × ℕ) Before := ⟨fun a b c hab hbc => by unfold Before at *; omega⟩

/-- The places that receive a unit. -/
def served (m : ℕ) (ws : List ℕ) : List ℕ :=
  ((order (remainders m ws)).take (m - (floors m ws).sum)).map (·.2)

theorem mem_order {rs : List ℕ} {r : ℕ} : (r, i) ∈ order rs ↔ rs[i]? = some r ∧ 0 < r := by
  rw [order, List.mem_insertionSort, List.mem_filter, List.mk_mem_zipIdx_iff_getElem?,
    decide_eq_true_eq]

theorem places_nodup (rs : List ℕ) : ((order rs).map (·.2)).Nodup := by
  have hperm : (order rs).Perm (rs.zipIdx.filter fun entry => 0 < entry.1) :=
    List.perm_insertionSort _ _
  rw [(hperm.map (·.2)).nodup_iff]
  refine List.Nodup.sublist ((List.filter_sublist).map _) ?_
  rw [List.zipIdx_map_snd]
  exact List.nodup_range' ..

theorem getElem?_handOut : ∀ (shares : List ℕ) {entries : List (ℕ × ℕ)} (left k : ℕ),
    (entries.map (·.2)).Nodup → (handOut shares entries left)[k]? =
      shares[k]?.map (· + if k ∈ (entries.take left).map (·.2) then 1 else 0)
  | shares, [], left, k, _ => by simp [handOut]
  | shares, entry :: rest, 0, k, _ => by simp [handOut]
  | shares, entry :: rest, left + 1, k, h => by
    rw [List.map_cons, List.nodup_cons] at h
    rw [handOut, if_neg (Nat.succ_ne_zero left), Nat.add_sub_cancel, getElem?_handOut _ left k h.2,
      List.getElem?_modify, List.take_succ_cons, List.map_cons]
    by_cases hk : entry.2 = k
    · have hnot : k ∉ (rest.map (·.2)).take left := fun hmem =>
        h.1 (hk ▸ List.mem_of_mem_take hmem)
      simp [hk, hnot, Function.comp_def]
    · simp [hk, Ne.symm hk]

theorem getElem_apportion (h : i < (apportion m ws).length) (hw : i < ws.length) :
    (apportion m ws)[i] = m * ws[i] / ws.sum + if i ∈ served m ws then 1 else 0 := by
  have hget := getElem?_handOut (floors m ws) (m - (floors m ws).sum) i
    (places_nodup (remainders m ws))
  have hfloor : (floors m ws)[i]? = some (m * ws[i] / ws.sum) := by
    simp [floors, hw]
  rw [hfloor, Option.map_some] at hget
  exact (List.getElem?_eq_some_iff.1 hget).2

theorem served_first (hi : i < ws.length) (hj : j < ws.length) (hserved : i ∈ served m ws)
    (hnot : j ∉ served m ws) :
    m * ws[j] % ws.sum < m * ws[i] % ws.sum ∨
      (m * ws[j] % ws.sum = m * ws[i] % ws.sum ∧ i ≤ j) := by
  have hget : ∀ {k : ℕ} (hk : k < ws.length), (remainders m ws)[k]? = some (m * ws[k] % ws.sum) :=
    fun hk => by simp [remainders, hk]
  have hentry : (m * ws[i] % ws.sum, i) ∈
      (order (remainders m ws)).take (m - (floors m ws).sum) := by
    obtain ⟨⟨r, k⟩, hentry, hk⟩ := List.mem_map.1 hserved
    change k = i at hk
    subst hk
    obtain ⟨hr, -⟩ := mem_order.1 ((List.take_sublist _ _).subset hentry)
    rwa [Option.some.inj ((hget hi).symm.trans hr)]
  have hpos := (mem_order.1 ((List.take_sublist _ _).subset hentry)).2
  by_cases hzero : m * ws[j] % ws.sum = 0
  · exact .inl (by omega)
  · have hmem : (m * ws[j] % ws.sum, j) ∈ order (remainders m ws) :=
      mem_order.2 ⟨hget hj, by omega⟩
    rw [← List.take_append_drop (m - (floors m ws).sum) (order (remainders m ws)),
      List.mem_append] at hmem
    have hdrop := hmem.resolve_left fun h => hnot (List.mem_map.2 ⟨_, h, rfl⟩)
    have hsorted : (order (remainders m ws)).Pairwise Before := List.pairwise_insertionSort _ _
    rw [← List.take_append_drop (m - (floors m ws).sum) (order (remainders m ws)),
      List.pairwise_append] at hsorted
    have hbefore := hsorted.2.2 _ hentry _ hdrop
    unfold Before at hbefore
    omega

theorem served_pos (hi : i < ws.length) (h : i ∈ served m ws) :
    0 < m * ws[i] % ws.sum := by
  obtain ⟨⟨r, k⟩, hentry, rfl⟩ := List.mem_map.1 h
  obtain ⟨hr, hpos⟩ := mem_order.1 ((List.take_sublist _ _).subset hentry)
  have hget : (remainders m ws)[k]? = some (m * ws[k] % ws.sum) := by simp [remainders, hi]
  rwa [Option.some.inj (hget.symm.trans hr)]

theorem getElem_apportion_near (hpos : 0 < ws.sum) (h : i < (apportion m ws).length)
    (hw : i < ws.length) : m * ws[i] < ws.sum * ((apportion m ws)[i] + 1) ∧
      ws.sum * (apportion m ws)[i] < m * ws[i] + ws.sum := by
  have hdiv := Nat.div_add_mod (m * ws[i]) ws.sum
  have hmod := Nat.mod_lt (m * ws[i]) hpos
  rw [getElem_apportion h hw]
  simp only [Nat.mul_add]
  split_ifs with hserved
  · have := served_pos hw hserved
    omega
  · omega

theorem getElem_apportion_zero (h : i < (apportion m ws).length) (hw : i < ws.length)
    (hzero : ws[i] = 0) : (apportion m ws)[i] = 0 := by
  have hnot : i ∉ served m ws := fun hserved => by
    have := served_pos hw hserved
    simp [hzero] at this
  simp [getElem_apportion h hw, hzero, hnot]

theorem apportion_fair (hpos : 0 < ws.sum) :
    Fair m ws ((apportion m ws).map (Nat.cast : ℕ → ℤ)) where
  length := by rw [List.length_map, length_apportion]
  sum := by
    have hcast := map_list_sum (Nat.castAddMonoidHom ℤ) (apportion m ws)
    rw [sum_apportion hpos] at hcast
    exact hcast.symm
  close := by
    refine List.pairwise_iff_getElem.2 fun i j hi hj hij => ?_
    simp only [misses, List.length_zipWith, List.length_map, length_apportion, min_self] at hi hj
    have hmiss : ∀ {k : ℕ} (hk : k < ws.length) {happ : k < (apportion m ws).length},
        (m * ws[k] : ℤ) - ws.sum * ((apportion m ws)[k] : ℕ) =
          (m * ws[k] % ws.sum : ℕ) - ws.sum * if k ∈ served m ws then 1 else 0 := by
      intro k hk happ
      rw [getElem_apportion happ hk]
      have hdiv : (ws.sum : ℤ) * (m * ws[k] / ws.sum : ℕ) + (m * ws[k] % ws.sum : ℕ) =
          m * ws[k] := by
        exact_mod_cast Nat.div_add_mod (m * ws[k]) ws.sum
      rw [← hdiv]
      push_cast
      ring
    simp only [misses, List.getElem_zipWith, List.getElem_map, hmiss hi, hmiss hj]
    have hri := Nat.mod_lt (m * ws[i]) hpos
    have hrj := Nat.mod_lt (m * ws[j]) hpos
    by_cases hsi : i ∈ served m ws
    · by_cases hsj : j ∈ served m ws
      · simp only [hsi, hsj, if_true]
        omega
      · have hfirst := served_first hi hj hsi hsj
        simp only [hsi, hsj, if_true, if_false]
        omega
    · by_cases hsj : j ∈ served m ws
      · have hfirst := served_first hj hi hsj hsi
        simp only [hsi, hsj, if_true, if_false]
        omega
      · simp only [hsi, hsj, if_false]
        omega

/-- The apportioned shares are the only fair ones. -/
theorem fair_iff (hpos : 0 < ws.sum) :
    Fair m ws xs ↔ xs = (apportion m ws).map (Nat.cast : ℕ → ℤ) := by
  constructor
  · exact fun h => h.unique (apportion_fair hpos)
  · rintro rfl
    exact apportion_fair hpos

end Fair

end LargestRemainder

end Loxep
