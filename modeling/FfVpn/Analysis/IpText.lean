import FfVpn.Model.Hops

/-!
# Addresses as text

`config.rs` reads addresses with `FromStr` and writes them with `Display`; `arti_runtime.rs` hands
Tor the `Display` of the address a SOCKS request names. The two are inverse to each other on the
addresses there are (`parseIpAddr_ipToString_iff`): what stands for a run of zero segments, and the
dotted end of an IPv4-mapped address, is read as the segments it was written for.
-/

set_option autoImplicit false

namespace FfVpn.Analysis.IpText

open FfVpn.Model.Config FfVpn.Model.Hops FfVpn.Model.Socks

/-- Four octets or eight segments. -/
def WellFormed : IpAddr → Prop
  | .v4 octets => octets.length = 4
  | .v6 segments => segments.length = 8

/-! ## Numbers -/

theorem toDigit_digitChar : ∀ b ≤ 16, ∀ d < b, toDigit b (Nat.digitChar d) = some d := by
  decide

/-- Every character of a written number is a digit of its base. -/
theorem isSome_toDigit {b : Nat} (hb : 1 < b) (hb16 : b ≤ 16) (n : Nat) :
    ∀ c ∈ Nat.toDigits b n, (toDigit b c).isSome := by
  induction n using Nat.strong_induction_on with
  | _ n ih =>
    intro c hc
    rw [Nat.toDigits_eq_if hb] at hc
    split at hc
    · rename_i hlt
      rw [List.mem_singleton.mp hc, toDigit_digitChar b hb16 n hlt]
      rfl
    · rename_i hle
      rcases List.mem_append.mp hc with hc | hc
      · exact ih (n / b) (Nat.div_lt_self (by omega) hb) c hc
      · rw [List.mem_singleton.mp hc, toDigit_digitChar b hb16 _ (Nat.mod_lt n (by omega))]
        rfl

/-- A written number has the value it was written for. -/
theorem foldl_toDigits {b : Nat} (hb : 1 < b) (hb16 : b ≤ 16) (n : Nat) :
    (Nat.toDigits b n).foldl (fun n c => n * b + (toDigit b c).getD 0) 0 = n := by
  induction n using Nat.strong_induction_on with
  | _ n ih =>
    rw [Nat.toDigits_eq_if hb]
    split
    · rename_i hlt
      simp [toDigit_digitChar b hb16 n hlt]
    · have hrec := ih (n / b) (Nat.div_lt_self (by omega) hb)
      have hd := toDigit_digitChar b hb16 _ (Nat.mod_lt n (by omega : b > 0))
      rw [List.foldl_append, hrec]
      simp only [List.foldl_cons, List.foldl_nil, hd, Option.getD_some]
      rw [Nat.mul_comm]
      exact Nat.div_add_mod n b

/-- A written number begins with a zero only if it is zero. -/
theorem length_of_head_zero {b : Nat} (hb : 1 < b) (hb16 : b ≤ 16) (n : Nat)
    (h : (Nat.toDigits b n).head? = some '0') : (Nat.toDigits b n).length ≤ 1 ∧ n = 0 := by
  induction n using Nat.strong_induction_on with
  | _ n ih =>
    rw [Nat.toDigits_eq_if hb] at h ⊢
    split
    · rename_i hlt
      rw [if_pos hlt] at h
      have hd := toDigit_digitChar b hb16 n hlt
      rw [Option.some.inj h] at hd
      have hz : toDigit b '0' = some 0 := toDigit_digitChar b hb16 0 (by omega)
      rw [hz] at hd
      exact ⟨Nat.le_refl 1, (Option.some.inj hd).symm⟩
    · rename_i hle
      rw [if_neg hle, List.head?_append_of_ne_nil _ Nat.toDigits_ne_nil] at h
      -- the number without its last digit would be zero, and the number less than the base
      have hzero := (ih (n / b) (Nat.div_lt_self (by omega) hb) h).2
      exact absurd ((Nat.div_eq_zero_iff_lt (by omega)).mp hzero) hle

/-- A text at which a number ends. -/
def Ends (b : Nat) (rest : List Char) : Prop := ∀ c ∈ rest.head?, toDigit b c = none

theorem ends_cons {b : Nat} {c : Char} {cs : List Char} (h : toDigit b c = none) :
    Ends b (c :: cs) := by
  rintro _ ⟨⟩
  exact h

theorem takeWhile_digits {b : Nat} (ds : List Char) {rest : List Char}
    (hds : ∀ c ∈ ds, (toDigit b c).isSome)
    (hrest : Ends b rest) : (ds ++ rest).takeWhile (fun c => (toDigit b c).isSome) = ds := by
  have hstop : rest.takeWhile (fun c => (toDigit b c).isSome) = [] := by
    cases rest with
    | nil => rfl
    | cons c rest => simp [hrest c rfl]
  rw [List.takeWhile_append_of_pos hds, hstop, List.append_nil]

/-- **A written number is read back**, with or without leading zeros allowed. -/
theorem readNumber_toDigits {b k n : Nat} (bound : Nat) (hb : 1 < b) (hb16 : b ≤ 16) (hk : 0 < k)
    (hlen : n < b ^ k) (hbound : n < bound) (zeros : Bool) (rest : List Char)
    (hrest : Ends b rest) :
    readNumber b k bound zeros (Nat.toDigits b n ++ rest) = some (n, rest) := by
  have htake := takeWhile_digits _ (isSome_toDigit hb hb16 n) hrest
  have hpos : (Nat.toDigits b n).length ≠ 0 := Nat.length_toDigits_pos.ne'
  have hle : (Nat.toDigits b n).length ≤ k := (Nat.length_toDigits_le_iff hb hk).mpr hlen
  have hhead : (Nat.toDigits b n ++ rest).head? = (Nat.toDigits b n).head? :=
    List.head?_append_of_ne_nil _ Nat.toDigits_ne_nil
  have hzero : ¬ ((!zeros && (Nat.toDigits b n).head? = some '0' &&
      1 < (Nat.toDigits b n).length) = true) := by
    simp only [Bool.and_eq_true, decide_eq_true_eq]
    rintro ⟨⟨-, hz⟩, hlong⟩
    have := (length_of_head_zero hb hb16 n hz).1
    omega
  simp only [readNumber, htake, foldl_toDigits hb hb16, hhead]
  rw [if_neg (by omega), if_neg hzero, if_pos hbound, List.drop_left]

/-- A number does not begin with what is no digit of its base. -/
theorem readNumber_ends {b k bound : Nat} {zeros : Bool} {rest : List Char} (h : Ends b rest) :
    readNumber b k bound zeros rest = none := by
  have htake : rest.takeWhile (fun c => (toDigit b c).isSome) = [] :=
    takeWhile_digits [] (by simp) h
  simp [readNumber, htake]

/-! ## Parts and their separators -/

/-- Parts of an address, the first of them the `index`-th. -/
def joined (sep : Char) : Nat → List (List Char) → List Char
  | _, [] => []
  | index, t :: ts => (if index = 0 then t else sep :: t) ++ joined sep (index + 1) ts

theorem joined_succ (sep : Char) (i j : Nat) (ts : List (List Char)) :
    joined sep (i + 1) ts = joined sep (j + 1) ts := by
  induction ts generalizing i j with
  | nil => rfl
  | cons t ts ih => simp [joined, ih (i + 1) (j + 1)]

/-- What `join` writes. -/
theorem toList_intercalate (sep : Char) (ts : List (List Char)) :
    ((String.singleton sep).intercalate (ts.map String.ofList)).toList = joined sep 0 ts := by
  induction ts with
  | nil => simp [joined]
  | cons t ts ih =>
    cases ts with
    | nil => simp [joined]
    | cons u us =>
      rw [List.map_cons, List.map_cons, String.intercalate_cons_cons, ← List.map_cons]
      simp only [String.toList_append, ih, String.toList_ofList, String.toList_singleton]
      simp [joined, joined_succ sep 1 0]

theorem readSeparator_part {α : Type} (sep : Char) (index : Nat)
    (inner : List Char → Option (α × List Char)) (t rest : List Char) :
    readSeparator sep index inner ((if index = 0 then t else sep :: t) ++ rest) =
      inner (t ++ rest) := by
  unfold readSeparator
  split <;> simp

theorem readSeparator_zero {α : Type} (sep : Char) (inner : List Char → Option (α × List Char))
    (cs : List Char) : readSeparator sep 0 inner cs = inner cs := rfl

/-- A part ends where the next one has its separator. -/
theorem ends_joined {b : Nat} (sep : Char) (hsep : toDigit b sep = none) (index : Nat)
    (ts : List (List Char)) {rest : List Char} (hrest : Ends b rest) :
    Ends b (joined sep (index + 1) ts ++ rest) := by
  cases ts with
  | nil => exact hrest
  | cons t ts =>
    intro c hc
    simp [joined] at hc
    exact hc ▸ hsep

/-! ## IPv4 -/

theorem exists_of_length_four {octets : List UInt8} (h : octets.length = 4) :
    ∃ a b c d, octets = [a, b, c, d] := by
  rcases octets with _ | ⟨a, _ | ⟨b, _ | ⟨c, _ | ⟨d, _ | ⟨e, octets⟩⟩⟩⟩⟩ <;> simp at h
  exact ⟨a, b, c, d, rfl⟩

def octetText (x : UInt8) : List Char := Nat.toDigits 10 x.toNat

theorem toList_ipToString_v4 (octets : List UInt8) :
    (ipToString (.v4 octets)).toList = joined '.' 0 (octets.map octetText) := by
  have hmap : octets.map (fun x => toString x.toNat) =
      (octets.map octetText).map String.ofList := by
    simp [octetText, Nat.repr_eq_ofList_toDigits]
  rw [ipToString, hmap]
  exact toList_intercalate '.' _

theorem readOctets_joined (octets : List UInt8) (index : Nat) {rest : List Char}
    (hrest : Ends 10 rest) :
    readOctets octets.length index (joined '.' index (octets.map octetText) ++ rest) =
      some (octets, rest) := by
  induction octets generalizing index with
  | nil => rfl
  | cons x octets ih =>
    have hx : x.toNat < 256 := x.toNat_lt
    have hends := ends_joined (b := 10) '.' (by decide) index (octets.map octetText) hrest
    have hnum := readNumber_toDigits (b := 10) (k := 3) (n := x.toNat) 256 (by omega) (by omega)
      (by omega) (by omega) hx false _ hends
    rw [List.map_cons, joined, List.length_cons, readOctets, List.append_assoc,
      readSeparator_part]
    simp [octetText, hnum, ih (index + 1)]

theorem readIpv4Addr_joined {octets : List UInt8} (h : octets.length = 4) (rest : List Char)
    (hrest : Ends 10 rest) :
    readIpv4Addr (joined '.' 0 (octets.map octetText) ++ rest) = some (octets, rest) := by
  have := readOctets_joined octets 0 hrest
  rwa [h] at this

/-- An IPv4 address has a dot. -/
theorem dot_of_readIpv4Addr {cs : List Char} (h : (readIpv4Addr cs).isSome) : '.' ∈ cs := by
  unfold readIpv4Addr at h
  rw [readOctets, readSeparator_zero] at h
  cases hnum : readNumber 10 3 256 false cs with
  | none => simp [hnum] at h
  | some r =>
    obtain ⟨n, rest⟩ := r
    have hsub : rest ⊆ cs := by
      intro c hc
      simp only [readNumber] at hnum
      split_ifs at hnum
      cases hnum
      exact List.mem_of_mem_drop hc
    cases rest with
    | nil => simp [hnum, readOctets, readSeparator] at h
    | cons c rest =>
      by_cases hc : c = '.'
      · exact hsub (by simp [hc])
      · simp [hnum, readOctets, readSeparator, hc] at h

theorem readIpv4Addr_ends {cs : List Char} (h : Ends 10 cs) : readIpv4Addr cs = none := by
  rw [readIpv4Addr, readOctets, readSeparator_zero, readNumber_ends h]
  rfl

theorem readIpv4Addr_eq_none {cs : List Char} (h : '.' ∉ cs) : readIpv4Addr cs = none :=
  Option.not_isSome_iff_eq_none.mp fun hsome => h (dot_of_readIpv4Addr hsome)

/-! ## Groups of an IPv6 address -/

def groupText (x : UInt16) : List Char := Nat.toDigits 16 x.toNat

/-- A text at which the groups end: nothing, or the mark of a run of zeros. -/
def Stops (rest : List Char) : Prop := rest = [] ∨ ∃ cs, rest = ':' :: ':' :: cs

theorem Stops.ends {rest : List Char} (h : Stops rest) : Ends 16 rest := by
  intro c hc
  rcases h with rfl | ⟨cs, rfl⟩
  · cases hc
  · exact ends_cons (by decide) c hc

theorem dot_notMem_groupText (x : UInt16) : '.' ∉ groupText x := by
  intro hdot
  have h := isSome_toDigit (b := 16) (by omega) (by omega) _ _ hdot
  have hnone : toDigit 16 '.' = none := by decide
  simp [hnone] at h

theorem dot_notMem_joined (index : Nat) (xs : List UInt16) :
    '.' ∉ joined ':' index (xs.map groupText) := by
  induction xs generalizing index with
  | nil => simp [joined]
  | cons x xs ih =>
    have hx := dot_notMem_groupText x
    rw [List.map_cons, joined]
    split <;> simp [hx, ih]

/-- No group and no embedded IPv4 address begins where the groups end. -/
theorem readGroups_stop (left index : Nat) {rest : List Char} (h : Stops rest) (hdot : '.' ∉ rest) :
    readGroups left index rest = ([], false, rest) := by
  cases left with
  | zero => rfl
  | succ left =>
    have hpart : readSeparator ':' index (readNumber 16 4 65536 true) rest = none := by
      unfold readSeparator
      split
      · exact readNumber_ends h.ends
      · rcases h with rfl | ⟨cs, rfl⟩
        · rfl
        · have hend : Ends 16 (':' :: cs) := ends_cons (by decide)
          simp [readNumber_ends hend]
    have hip : readSeparator ':' index readIpv4Addr rest = none := by
      unfold readSeparator
      split
      · exact readIpv4Addr_eq_none hdot
      · cases rest with
        | nil => rfl
        | cons c cs =>
          have hcs : '.' ∉ cs := fun hmem => hdot (List.mem_cons_of_mem _ hmem)
          simp [readIpv4Addr_eq_none hcs]
    simp [readGroups, hpart, hip]

theorem readGroups_joined (xs : List UInt16) (left : Nat) (hleft : xs.length ≤ left) (index : Nat)
    (rest : List Char) (hstop : Stops rest) (hdot : '.' ∉ rest) :
    readGroups left index (joined ':' index (xs.map groupText) ++ rest) = (xs, false, rest) := by
  induction xs generalizing left index with
  | nil => exact readGroups_stop left index hstop hdot
  | cons x xs ih =>
    obtain ⟨left, rfl⟩ : ∃ n, left = n + 1 := ⟨left - 1, by simp at hleft; omega⟩
    have hx : x.toNat < 65536 := x.toNat_lt
    have hends := ends_joined (b := 16) ':' (by decide) index (xs.map groupText) hstop.ends
    have hnum := readNumber_toDigits (b := 16) (k := 4) (n := x.toNat) 65536 (by omega) (by omega)
      (by omega) (by omega) hx true _ hends
    have hnodot : '.' ∉ groupText x ++ (joined ':' (index + 1) (xs.map groupText) ++ rest) := by
      simp [dot_notMem_groupText x, dot_notMem_joined (index + 1) xs, hdot]
    have hrec := ih left (by simpa using hleft) (index + 1)
    rw [List.map_cons, joined, List.append_assoc, readGroups, readSeparator_part,
      readSeparator_part, readIpv4Addr_eq_none hnodot]
    simp [groupText, hnum] at hrec ⊢
    simp [hrec]

/-! ## Runs of zero segments -/

/-- The segments from `run.1` on, `run.2` of them, are zero. -/
def ZeroRun (segments : List Nat) (run : Nat × Nat) : Prop :=
  ∃ before after, segments = before ++ List.replicate run.2 0 ++ after ∧ before.length = run.1

theorem ZeroRun.append {segments : List Nat} {run : Nat × Nat} (h : ZeroRun segments run)
    (more : List Nat) : ZeroRun (segments ++ more) run := by
  obtain ⟨before, after, rfl, hlen⟩ := h
  exact ⟨before, after ++ more, by simp, hlen⟩

/-- The loop, when it has read `done`: `best` is a run of `done`, and `cur` the one it ends with. -/
theorem longestZeros_zeroRun (rest done : List Nat) (cur best : Nat × Nat)
    (hcur : cur.2 = 0 ∨ ∃ before, done = before ++ List.replicate cur.2 0 ∧ before.length = cur.1)
    (hbest : ZeroRun done best) :
    ZeroRun (done ++ rest) (longestZeros done.length cur best rest) := by
  induction rest generalizing done cur best with
  | nil => simpa [longestZeros] using hbest
  | cons seg rest ih =>
    have hsplit : done ++ seg :: rest = (done ++ [seg]) ++ rest := by simp
    have hlen : (done ++ [seg]).length = done.length + 1 := by simp
    rw [hsplit, longestZeros]
    split
    · rename_i hseg
      rw [← hlen]
      -- the run at the end grows by this segment, or begins with it
      have hrun : ∃ before, done ++ [seg] = before ++ List.replicate (cur.2 + 1) 0 ∧
          before.length = if cur.2 = 0 then done.length else cur.1 := by
        rcases hcur with hzero | ⟨before, hdone, hbefore⟩
        · exact ⟨done, by simp [hzero, hseg], by simp [hzero]⟩
        · by_cases hzero : cur.2 = 0
          · exact ⟨done, by simp [hzero, hseg], by simp [hzero]⟩
          · exact ⟨before, by simp [hdone, hseg, List.replicate_succ'], by simp [hzero, hbefore]⟩
      obtain ⟨before, hdone, hbefore⟩ := hrun
      refine ih (done ++ [seg]) _ _ (Or.inr ⟨before, hdone, hbefore⟩) ?_
      by_cases hlonger : best.2 < cur.2 + 1
      · simp only [gt_iff_lt, hlonger, if_true]
        exact ⟨before, [], by simp [hdone], hbefore⟩
      · simp only [gt_iff_lt, hlonger, if_false]
        exact hbest.append [seg]
    · rw [← hlen]
      exact ih (done ++ [seg]) _ _ (Or.inl rfl) (hbest.append [seg])

/-! ## IPv6 -/

/-- The segments that pairs of octets are. -/
def pairs : List UInt8 → List UInt16
  | hi :: lo :: rest => Model.Config.segment hi lo :: pairs rest
  | _ => []

theorem toNat_segment (hi lo : UInt8) :
    (Model.Config.segment hi lo).toNat = hi.toNat * 256 + lo.toNat := by
  have hhi := hi.toNat_lt
  have hlo := lo.toNat_lt
  rw [Model.Config.segment, UInt16.toNat_ofNat']
  omega

theorem pairs_flatMap (segments : List UInt16) :
    pairs (segments.flatMap fun s =>
      [UInt8.ofNat (s.toNat / 256), UInt8.ofNat (s.toNat % 256)]) = segments := by
  induction segments with
  | nil => rfl
  | cons s segments ih =>
    have hs :
        Model.Config.segment (UInt8.ofNat (s.toNat / 256)) (UInt8.ofNat (s.toNat % 256)) = s := by
      have hlt := s.toNat_lt
      refine UInt16.toNat_inj.mp ?_
      rw [toNat_segment, UInt8.toNat_ofNat', UInt8.toNat_ofNat']
      omega
    simp [pairs, hs, ih]

theorem map_pairs {n : Nat} {bytes : List UInt8} (h : bytes.length = 2 * n) :
    (List.range n).map (fun i =>
      (bytes.getD (2 * i) 0).toNat * 256 + (bytes.getD (2 * i + 1) 0).toNat) =
        (pairs bytes).map UInt16.toNat := by
  induction n generalizing bytes with
  | zero => simp [List.length_eq_zero_iff.mp h, pairs]
  | succ n ih =>
    rcases bytes with _ | ⟨hi, _ | ⟨lo, bytes⟩⟩
    · simp at h
    · simp at h
      omega
    · have hrec := ih (show bytes.length = 2 * n by simp at h; omega)
      rw [List.range_succ_eq_map, pairs, List.map_cons, List.map_cons, List.map_map, ← hrec,
        toNat_segment]
      simp [Function.comp_def, Nat.mul_add]

theorem length_pairs {n : Nat} {bytes : List UInt8} (h : bytes.length = 2 * n) :
    (pairs bytes).length = n := by
  have := congrArg List.length (map_pairs h)
  simpa using this.symm

theorem pairs_append {n : Nat} {front : List UInt8} (h : front.length = 2 * n)
    (back : List UInt8) : pairs (front ++ back) = pairs front ++ pairs back := by
  induction n generalizing front with
  | zero => simp [List.length_eq_zero_iff.mp h, pairs]
  | succ n ih =>
    rcases front with _ | ⟨hi, _ | ⟨lo, front⟩⟩
    · simp at h
    · simp at h
      omega
    · simp [pairs, ih (show front.length = 2 * n by simp at h; omega)]

theorem toList_chunk (xs : List UInt16) :
    (":".intercalate ((xs.map UInt16.toNat).map hexSegment)).toList =
      joined ':' 0 (xs.map groupText) := by
  have hmap : (xs.map UInt16.toNat).map hexSegment = (xs.map groupText).map String.ofList := by
    simp [groupText, hexSegment]
  rw [hmap]
  exact toList_intercalate ':' _

/-- The mark of a run of zeros stands for as many of them as are missing. -/
theorem readIpv6Addr_compressed {head tail : List UInt16} {n : Nat} (hn : 1 < n)
    (hlen : head.length + n + tail.length = 8) :
    readIpv6Addr (joined ':' 0 (head.map groupText) ++
      ':' :: ':' :: joined ':' 0 (tail.map groupText)) =
        some (head ++ List.replicate n 0 ++ tail, []) := by
  have hdot : '.' ∉ ':' :: ':' :: joined ':' 0 (tail.map groupText) := by
    simp [dot_notMem_joined 0 tail]
  have hhead := readGroups_joined head 8 (by omega) 0 _ (.inr ⟨_, rfl⟩) hdot
  have htail := readGroups_joined tail (7 - head.length) (by omega) 0 []
    (.inl rfl) (by simp)
  rw [List.append_nil] at htail
  have hzeros : 8 - head.length - tail.length = n := by omega
  have hshort : ¬ head.length = 8 := by omega
  simp [readIpv6Addr, hhead, htail, hzeros, hshort]

theorem readIpv6Addr_whole {xs : List UInt16} (h : xs.length = 8) :
    readIpv6Addr (joined ':' 0 (xs.map groupText)) = some (xs, []) := by
  have hxs := readGroups_joined xs 8 (by omega) 0 [] (.inl rfl) (by simp)
  rw [List.append_nil] at hxs
  simp [readIpv6Addr, hxs, h]

/-- The dotted end of an IPv4-mapped address is its last two segments. -/
theorem readIpv6Addr_mapped {octets : List UInt8} (h : octets.length = 4) :
    readIpv6Addr (':' :: ':' :: (groupText 0xffff ++ ':' :: joined '.' 0 (octets.map octetText))) =
      some (List.replicate 5 0 ++ 0xffff :: pairs octets, []) := by
  obtain ⟨a, b, c, d, rfl⟩ := exists_of_length_four h
  have hdotted := readIpv4Addr_joined h [] (by simp [Ends])
  rw [List.append_nil] at hdotted
  generalize joined '.' 0 ([a, b, c, d].map octetText) = dotted at hdotted ⊢
  have hlast : readGroups 6 1 (':' :: dotted) =
      ([Model.Config.segment a b, Model.Config.segment c d], true, []) := by
    rw [readGroups]
    simp only [readSeparator, hdotted]
    simp
  have hlow : Ends 10 (groupText 0xffff ++ ':' :: dotted) := ends_cons (by decide)
  have hffff := readNumber_toDigits (b := 16) (k := 4) (n := 0xffff) 65536 (by omega)
    (by omega) (by omega) (by omega) (by omega) true (':' :: dotted)
    (ends_cons (by decide))
  have htail : readGroups 7 0 (groupText 0xffff ++ ':' :: dotted) =
      ([0xffff, Model.Config.segment a b, Model.Config.segment c d], true, []) := by
    rw [readGroups, readSeparator_zero, readSeparator_zero, readIpv4Addr_ends hlow]
    simp only [groupText, UInt16.reduceToNat, hffff, hlast]
    simp
  generalize groupText 0xffff ++ ':' :: dotted = rest at htail ⊢
  have hhead : readGroups 8 0 (':' :: ':' :: rest) = ([], false, ':' :: ':' :: rest) := by
    rw [readGroups, readSeparator_zero, readSeparator_zero,
      readIpv4Addr_ends (ends_cons (by decide)), readNumber_ends (ends_cons (by decide))]
    simp
  simp [readIpv6Addr, hhead, htail, pairs]

/-- Segments are known by their values. -/
theorem eq_of_map_toNat {xs ys : List UInt16} (h : xs.map UInt16.toNat = ys.map UInt16.toNat) :
    xs = ys :=
  List.map_injective_iff.mpr (fun _ _ => UInt16.toNat_inj.mp) h

/-- An address whose first segments are those of a mapped one, by its last four octets. -/
theorem mapped_cases {bytes : List UInt8} (h : bytes.length = 16)
    (hmapped : ((pairs bytes).map UInt16.toNat).take 6 = [0, 0, 0, 0, 0, 0xffff]) :
    ∃ a b c d, pairs bytes = List.replicate 5 0 ++ 0xffff :: pairs [a, b, c, d] ∧
      bytes.getD 12 0 = a ∧ bytes.getD 13 0 = b ∧ bytes.getD 14 0 = c ∧ bytes.getD 15 0 = d := by
  obtain ⟨front, back, rfl, hfront⟩ : ∃ front back, bytes = front ++ back ∧ front.length = 12 :=
    ⟨bytes.take 12, bytes.drop 12, (List.take_append_drop 12 bytes).symm, by simp [h]⟩
  rw [List.length_append] at h
  obtain ⟨a, b, c, d, rfl⟩ := exists_of_length_four (by omega : back.length = 4)
  have hpairs : (pairs front).length = 6 := length_pairs (by omega)
  rw [pairs_append (n := 6) (by omega), List.map_append,
    List.take_append_of_le_length (by simp [hpairs]), List.take_of_length_le (by simp [hpairs])]
    at hmapped
  have hsix : pairs front = List.replicate 5 0 ++ [0xffff] := eq_of_map_toNat hmapped
  refine ⟨a, b, c, d, ?_, ?_, ?_, ?_, ?_⟩
  · rw [pairs_append (n := 6) (by omega), hsix]
    simp
  all_goals simp [List.getD, hfront]

/-- A run of zero segments and what is around it. -/
theorem zeroRun_cases {xs : List UInt16} {run : Nat × Nat}
    (h : ZeroRun (xs.map UInt16.toNat) run) :
    ∃ head tail, xs = head ++ List.replicate run.2 0 ++ tail ∧ head.length = run.1 := by
  obtain ⟨before, after, hsplit, hbefore⟩ := h
  obtain ⟨front, tail, hxs, hfront, -⟩ := List.map_eq_append_iff.mp hsplit
  obtain ⟨head, zeros, hfront', hhead, hzeros⟩ := List.map_eq_append_iff.mp hfront
  have hreplicate : zeros = List.replicate run.2 0 := by
    refine eq_of_map_toNat ?_
    rw [hzeros]
    simp
  exact ⟨head, tail, by rw [hxs, hfront', hreplicate], by rw [← hbefore, ← hhead, List.length_map]⟩

/-- The three forms of an IPv6 address. -/
theorem ipv6ToString_cases {bytes : List UInt8} (h : bytes.length = 16) :
    (∃ octets, octets.length = 4 ∧ pairs bytes = List.replicate 5 0 ++ 0xffff :: pairs octets ∧
      (ipv6ToString bytes).toList =
        ':' :: ':' :: (groupText 0xffff ++ ':' :: joined '.' 0 (octets.map octetText))) ∨
    (∃ head tail n, 1 < n ∧ pairs bytes = head ++ List.replicate n 0 ++ tail ∧
      (ipv6ToString bytes).toList =
        joined ':' 0 (head.map groupText) ++ ':' :: ':' :: joined ':' 0 (tail.map groupText)) ∨
    (ipv6ToString bytes).toList = joined ':' 0 ((pairs bytes).map groupText) := by
  have hsegments := map_pairs (n := 8) (by omega : bytes.length = 2 * 8)
  simp only [ipv6ToString]
  rw [hsegments]
  split
  · rename_i hmapped
    obtain ⟨a, b, c, d, hpairs, ha, hb, hc, hd⟩ := mapped_cases h hmapped
    have htext : (ipv4ToString a b c d).toList = joined '.' 0 ([a, b, c, d].map octetText) :=
      toList_ipToString_v4 [a, b, c, d]
    refine .inl ⟨[a, b, c, d], rfl, hpairs, ?_⟩
    rw [ha, hb, hc, hd, String.toList_append, htext]
    rfl
  · split
    · rename_i hrun
      have hzeros := longestZeros_zeroRun ((pairs bytes).map UInt16.toNat) [] (0, 0) (0, 0)
        (.inl rfl) ⟨[], [], rfl, rfl⟩
      rw [List.length_nil, List.nil_append] at hzeros
      generalize longestZeros 0 (0, 0) (0, 0) ((pairs bytes).map UInt16.toNat) = run
        at hrun hzeros ⊢
      obtain ⟨head, tail, hsplit, hhead⟩ := zeroRun_cases hzeros
      have htake : (pairs bytes).take run.1 = head := by
        rw [hsplit, ← hhead]
        simp
      have hdrop : (pairs bytes).drop (run.1 + run.2) = tail := by
        rw [hsplit, ← hhead]
        simp
      refine .inr (.inl ⟨head, tail, run.2, hrun, hsplit, ?_⟩)
      rw [← List.map_take, ← List.map_drop, htake, hdrop, String.toList_append,
        String.toList_append, toList_chunk, toList_chunk, List.append_assoc]
      rfl
    · exact .inr (.inr (toList_chunk _))

theorem readIpv6Addr_ipv6ToString {bytes : List UInt8} (h : bytes.length = 16) :
    readIpv6Addr (ipv6ToString bytes).toList = some (pairs bytes, []) := by
  have hlen : (pairs bytes).length = 8 := length_pairs (by omega)
  obtain ⟨octets, hfour, hpairs, htext⟩ | ⟨head, tail, n, hn, hpairs, htext⟩ | htext :=
    ipv6ToString_cases h
  · rw [htext, hpairs]
    exact readIpv6Addr_mapped hfour
  · rw [htext, hpairs]
    refine readIpv6Addr_compressed hn ?_
    rw [hpairs] at hlen
    simpa [Nat.add_assoc] using hlen
  · rw [htext]
    exact readIpv6Addr_whole hlen

/-- An IPv6 address does not begin with an IPv4 address. -/
theorem readIpv4Addr_ipv6ToString {bytes : List UInt8} (h : bytes.length = 16) :
    readIpv4Addr (ipv6ToString bytes).toList = none := by
  obtain ⟨octets, -, -, htext⟩ | ⟨head, tail, n, -, -, htext⟩ | htext := ipv6ToString_cases h
  · rw [htext]
    exact readIpv4Addr_ends (ends_cons (by decide))
  · rw [htext]
    exact readIpv4Addr_eq_none (by simp [dot_notMem_joined])
  · rw [htext]
    exact readIpv4Addr_eq_none (dot_notMem_joined 0 _)

/-- **The text of sixteen octets is the address they are.** -/
theorem parseIpAddr_ipv6ToString {bytes : List UInt8} (h : bytes.length = 16) :
    parseIpAddr (ipv6ToString bytes) = some (.v6 (pairs bytes)) := by
  simp [parseIpAddr, readIpv4Addr_ipv6ToString h, readIpv6Addr_ipv6ToString h]

theorem parseIpAddr_ipv4ToString (a b c d : UInt8) :
    parseIpAddr (ipv4ToString a b c d) = some (.v4 [a, b, c, d]) := by
  have htext : (ipv4ToString a b c d).toList = joined '.' 0 ([a, b, c, d].map octetText) :=
    toList_ipToString_v4 [a, b, c, d]
  have hread := readIpv4Addr_joined (rfl : [a, b, c, d].length = 4) [] (by simp [Ends])
  rw [List.append_nil] at hread
  simp only [parseIpAddr, htext, hread]

/-! ## Both ways -/

theorem parseIpAddr_ipToString {ip : IpAddr} (h : WellFormed ip) :
    parseIpAddr (ipToString ip) = some ip := by
  cases ip with
  | v4 octets =>
    obtain ⟨a, b, c, d, rfl⟩ := exists_of_length_four h
    exact parseIpAddr_ipv4ToString a b c d
  | v6 segments =>
    have hlen : segments.length = 8 := h
    have hsum : (segments.flatMap fun s =>
        [UInt8.ofNat (s.toNat / 256), UInt8.ofNat (s.toNat % 256)]).length = 16 := by
      simp [List.length_flatMap, hlen]
    rw [ipToString, parseIpAddr_ipv6ToString hsum, pairs_flatMap]

theorem length_of_readOctets {left index : Nat} {cs rest : List Char} {octets : List UInt8}
    (h : readOctets left index cs = some (octets, rest)) : octets.length = left := by
  induction left generalizing index cs octets rest with
  | zero =>
    cases h
    rfl
  | succ left ih =>
    simp only [readOctets, Option.bind_eq_bind, Option.bind_eq_some_iff] at h
    obtain ⟨⟨n, cs'⟩, -, ⟨octets', rest'⟩, hrec, hsome⟩ := h
    cases hsome
    rw [List.length_cons, ih hrec]

theorem length_readGroups (left index : Nat) (cs : List Char) :
    (readGroups left index cs).1.length ≤ left := by
  fun_induction readGroups left index cs with
  | case1 => exact Nat.le_refl 0
  | case2 left index cs ipv4 a b c d rest hip =>
    -- an embedded address is read only where two groups fit
    have hleft : 0 < left := by
      by_contra hzero
      simp [ipv4, hzero] at hip
    exact Nat.succ_le_succ hleft
  | case3 left index cs => exact Nat.zero_le _
  | case4 left index cs ipv4 group rest hnum groups embedded rest' hrec hip ih =>
    rw [hrec] at ih
    exact Nat.succ_le_succ ih

theorem length_of_readIpv6Addr {cs rest : List Char} {segments : List UInt16}
    (h : readIpv6Addr cs = some (segments, rest)) : segments.length = 8 := by
  unfold readIpv6Addr at h
  have hhead := length_readGroups 8 0 cs
  generalize readGroups 8 0 cs = head at h hhead
  obtain ⟨head, embedded, cs'⟩ := head
  simp only at h hhead
  split_ifs at h with hlen
  · cases h
    exact hlen
  · split at h
    · rename_i cs''
      have htail := length_readGroups (8 - (head.length + 1)) 0 cs''
      generalize readGroups (8 - (head.length + 1)) 0 cs'' = tail at h htail
      obtain ⟨tail, embedded', rest'⟩ := tail
      simp only at h htail
      cases h
      simp only [List.length_append, List.length_replicate]
      omega
    · cases h

theorem wellFormed_of_parseIpAddr {s : String} {ip : IpAddr} (h : parseIpAddr s = some ip) :
    WellFormed ip := by
  unfold parseIpAddr at h
  cases hv4 : readIpv4Addr s.toList with
  | some r =>
    obtain ⟨octets, rest⟩ := r
    cases rest <;> simp [hv4] at h
    subst h
    exact length_of_readOctets hv4
  | none =>
    cases hv6 : readIpv6Addr s.toList with
    | none => simp [hv4, hv6] at h
    | some r =>
      obtain ⟨segments, rest⟩ := r
      cases rest <;> simp [hv4, hv6] at h
      subst h
      exact length_of_readIpv6Addr hv6

/-- **`FromStr` and `Display` are inverse to each other** on the addresses there are, and whatever
text `FromStr` reads, it is one of these addresses that it gives. -/
theorem parseIpAddr_ipToString_iff :
    (∀ ip, parseIpAddr (ipToString ip) = some ip ↔ WellFormed ip) ∧
      ∀ text ip, parseIpAddr text = some ip → WellFormed ip :=
  ⟨fun _ => ⟨wellFormed_of_parseIpAddr, parseIpAddr_ipToString⟩,
    fun _ _ => wellFormed_of_parseIpAddr⟩

end FfVpn.Analysis.IpText
