import Lightpay.Endpoint
import Mathlib.Data.List.TakeWhile

/-! The text of an endpoint is read back as the endpoint. The reader takes what it can, so each
part is read in front of any text that stops it. The run of zeros that is left out of an IPv6
address is restored from the number of the groups around it. -/

namespace Lightpay.Endpoint.Reader

/-- No digit stands in front. -/
def Stops (radix : Nat) (rest : List Char) : Prop :=
  ∀ c ∈ rest.head?, digitValue? radix c = none

theorem Stops.mono {radix less : Nat} {rest : List Char} (h : Stops radix rest)
    (hle : less ≤ radix) : Stops less rest := by
  intro c hc
  have hnone := h c hc
  simp only [digitValue?, ite_eq_right_iff, reduceCtorEq, imp_false, not_lt] at hnone ⊢
  exact hle.trans hnone

theorem stops_cons {radix : Nat} {c : Char} (hc : digitValue? radix c = none)
    (rest : List Char) : Stops radix (c :: rest) := by
  rintro _ ⟨⟩
  exact hc

theorem digitValue?_digitChar : ∀ radix ≤ 16, ∀ d < radix,
    digitValue? radix d.digitChar = some d := by decide

theorem digits_of_stops {radix : Nat} {rest : List Char} (h : Stops radix rest) :
    digits radix rest = ([], rest) := by
  cases rest with
  | nil => rfl
  | cons c rest => rw [digits, h c rfl]

theorem digits_append {radix : Nat} {cs rest : List Char} {values : List Nat}
    (hvalues : cs.map (digitValue? radix) = values.map some) (hrest : Stops radix rest) :
    digits radix (cs ++ rest) = (values, rest) := by
  induction cs generalizing values with
  | nil =>
    have hnil : values = [] := by simpa using hvalues.symm
    rw [hnil, List.nil_append, digits_of_stops hrest]
  | cons c cs ih =>
    cases values with
    | nil => cases hvalues
    | cons value values =>
      obtain ⟨hvalue, htail⟩ := List.cons.inj hvalues
      rw [List.cons_append, digits, hvalue, ih htail]

theorem exists_values {radix : Nat} (hone : 1 < radix) (hle : radix ≤ 16) (n : Nat) :
    ∃ values : List Nat, (Nat.toDigits radix n).map (digitValue? radix) = values.map some ∧
      values ≠ [] ∧ (values.head? = some 0 → n = 0) ∧
      values.foldl (fun n digit => radix * n + digit) 0 = n := by
  induction n using Nat.strongRecOn with
  | ind n ih =>
    rw [Nat.toDigits_eq_if hone]
    split
    · rename_i hlt
      refine ⟨[n], ?_, nofun, ?_, ?_⟩
      · rw [List.map_singleton, digitValue?_digitChar radix hle n hlt, List.map_singleton]
      · simp
      · simp
    · rename_i hge
      have hpos : 0 < n := by omega
      obtain ⟨values, hvalues, hne, hhead, hfold⟩ := ih (n / radix) (Nat.div_lt_self hpos hone)
      have hmod : n % radix < radix := Nat.mod_lt _ (by omega)
      refine ⟨values ++ [n % radix], ?_, by simp, ?_, ?_⟩
      · rw [List.map_append, List.map_append, hvalues, List.map_singleton,
          digitValue?_digitChar radix hle _ hmod, List.map_singleton]
      · intro hzero
        have hdiv : n / radix ≠ 0 := (Nat.div_pos (by omega) (by omega)).ne'
        cases values with
        | nil => exact absurd rfl hne
        | cons value values => exact absurd (hhead hzero) hdiv
      · rw [List.foldl_append, hfold, List.foldl_cons, List.foldl_nil, Nat.div_add_mod]

theorem digits_toDigits {radix : Nat} (hone : 1 < radix) (hle : radix ≤ 16) (n : Nat)
    {rest : List Char} (hrest : Stops radix rest) :
    ∃ values : List Nat, digits radix (Nat.toDigits radix n ++ rest) = (values, rest) ∧
      values.length = (Nat.toDigits radix n).length ∧ values ≠ [] ∧
      (values.head? = some 0 → n = 0) ∧
      values.foldl (fun n digit => radix * n + digit) 0 = n := by
  obtain ⟨values, hvalues, hne, hhead, hfold⟩ := exists_values hone hle n
  have hlength := congrArg List.length hvalues
  rw [List.length_map, List.length_map] at hlength
  exact ⟨values, digits_append hvalues hrest, hlength.symm, hne, hhead, hfold⟩

theorem number_toDigits {radix bound n : Nat} (hone : 1 < radix) (hle : radix ≤ 16)
    (hn : n < bound) {rest : List Char} (hrest : Stops radix rest) :
    number radix bound (Nat.toDigits radix n ++ rest) = some (n, rest) := by
  obtain ⟨values, hdigits, _, hne, _, hfold⟩ := digits_toDigits hone hle n hrest
  simp [number, hdigits, hfold, hne, hn]

theorem octet_toDigits (byte : UInt8) {rest : List Char} (hrest : Stops 10 rest) :
    octet (Nat.toDigits 10 byte.toNat ++ rest) = some (byte, rest) := by
  have hbyte : byte.toNat < 256 := byte.toNat_lt
  obtain ⟨values, hdigits, hlength, _, hhead, _⟩ :=
    digits_toDigits (by decide) (by decide) byte.toNat hrest
  have hshort : values.length ≤ 3 := by
    rw [hlength, Nat.length_toDigits_le_iff (by decide) (by decide)]
    omega
  have hidle : ¬ (values.head? = some 0 ∧ values.length ≠ 1) := by
    rintro ⟨hzero, hlong⟩
    rw [hlength, hhead hzero] at hlong
    exact hlong rfl
  have hpass : ¬ (3 < values.length ∨ values.head? = some 0 ∧ values.length ≠ 1) :=
    not_or.2 ⟨by omega, hidle⟩
  simp only [octet, hdigits, if_neg hpass,
    number_toDigits (by decide) (by decide) hbyte hrest, Option.map_some, UInt8.ofNat_toNat]

theorem group_toDigits (found : UInt16) {rest : List Char} (hrest : Stops 16 rest) :
    group (Nat.toDigits 16 found.toNat ++ rest) = some (found, rest) := by
  have hfound : found.toNat < 65536 := found.toNat_lt
  obtain ⟨values, hdigits, hlength, _⟩ :=
    digits_toDigits (by decide) (by decide) found.toNat hrest
  have hshort : ¬ 4 < values.length := by
    rw [hlength, not_lt, Nat.length_toDigits_le_iff (by decide) (by decide)]
    exact hfound
  simp only [group, hdigits, if_neg hshort,
    number_toDigits (by decide) (by decide) hfound hrest, Option.map_some, UInt16.ofNat_toNat]

theorem group_of_stops {rest : List Char} (h : Stops 16 rest) : group rest = none := by
  simp [group, number, digits_of_stops h]

theorem dotted_of_stops {rest : List Char} (h : Stops 10 rest) : dotted rest = none := by
  simp [dotted, octet, number, digits_of_stops h]

theorem dotted_emit (address : Ipv4) {rest : List Char} (hrest : Stops 10 rest) :
    dotted (address.emit rest) = some (address, rest) := by
  have hdot (cs : List Char) : Stops 10 ('.' :: cs) := stops_cons (by decide) cs
  simp [dotted, Ipv4.emit, octet_toDigits _ (hdot _), octet_toDigits _ hrest, expect]

theorem digits_suffix (radix : Nat) (cs : List Char) : (digits radix cs).2 <:+ cs := by
  induction cs with
  | nil => exact List.suffix_refl []
  | cons c cs ih =>
    rw [digits]
    split
    · exact List.suffix_refl _
    · exact ih.trans (List.suffix_cons c cs)

theorem number_suffix {radix bound n : Nat} {cs rest : List Char}
    (h : number radix bound cs = some (n, rest)) : rest <:+ cs := by
  simp only [number] at h
  split at h
  · cases h
  · obtain ⟨-, rfl⟩ := Prod.mk.inj (Option.some.inj h)
    exact digits_suffix radix cs

theorem octet_suffix {byte : UInt8} {cs rest : List Char} (h : octet cs = some (byte, rest)) :
    rest <:+ cs := by
  simp only [octet] at h
  split at h
  · cases h
  · obtain ⟨⟨n, rest'⟩, hnumber, hpair⟩ := Option.map_eq_some_iff.1 h
    obtain ⟨-, rfl⟩ := Prod.mk.inj hpair
    exact number_suffix hnumber

theorem expect_of_not_mem {c : Char} {cs : List Char} (h : c ∉ cs) : expect c cs = none := by
  cases cs with
  | nil => rfl
  | cons d cs => exact if_neg (List.ne_of_not_mem_cons h)

theorem dotted_of_not_mem {cs : List Char} (h : '.' ∉ cs) : dotted cs = none := by
  rw [dotted]
  cases hoctet : octet cs with
  | none => rfl
  | some found =>
    have hrest : '.' ∉ found.2 := fun hmem => h ((octet_suffix hoctet).subset hmem)
    simp [expect_of_not_mem hrest]

theorem afterColon_dotted {cs : List Char} (h : '.' ∉ cs) (first : Bool) :
    afterColon first dotted cs = none := by
  cases first with
  | true => exact dotted_of_not_mem h
  | false =>
    cases cs with
    | nil => rfl
    | cons c cs =>
      have hcs : '.' ∉ cs := List.not_mem_of_not_mem_cons h
      simp [afterColon, expect, dotted_of_not_mem hcs]

theorem digitValue?_dot : ∀ radix ≤ 16, digitValue? radix '.' = none := by decide

theorem dot_notMem_toDigits {radix : Nat} (hone : 1 < radix) (hle : radix ≤ 16) (n : Nat) :
    '.' ∉ Nat.toDigits radix n := by
  obtain ⟨values, hvalues, -⟩ := exists_values hone hle n
  intro hmem
  have hnone := List.mem_map_of_mem (f := digitValue? radix) hmem
  rw [digitValue?_dot radix hle, hvalues] at hnone
  simp at hnone

/-- No group can be read in front, with a colon before it or without. -/
structure Closes (rest : List Char) : Prop where
  stops : Stops 16 rest
  no_dot : '.' ∉ rest
  no_group : afterColon false group rest = none

def emitMore (found : List UInt16) (rest : List Char) : List Char :=
  found.flatMap (fun group => ':' :: Nat.toDigits 16 group.toNat) ++ rest

theorem emitGroups_cons (found : UInt16) (more : List UInt16) (rest : List Char) :
    Ipv6.emitGroups (found :: more) rest = Nat.toDigits 16 found.toNat ++ emitMore more rest := by
  induction more generalizing found with
  | nil => rfl
  | cons next more ih => simp [Ipv6.emitGroups, ih next, emitMore]

theorem stops_emitMore {rest : List Char} (h : Closes rest) (found : List UInt16) :
    Stops 16 (emitMore found rest) := by
  cases found with
  | nil => exact h.stops
  | cons found more => exact stops_cons (by decide) _

theorem dot_notMem_emitMore {rest : List Char} (h : Closes rest) (found : List UInt16) :
    '.' ∉ emitMore found rest := by
  simp [emitMore, h.no_dot, dot_notMem_toDigits]

theorem groups_of_closes {rest : List Char} (h : Closes rest) (room : Nat) (first : Bool) :
    groups room first rest = ([], false, rest) := by
  have hgroup : afterColon first group rest = none := by
    cases first with
    | true => exact group_of_stops h.stops
    | false => exact h.no_group
  cases room with
  | zero => rfl
  | succ room => simp [groups, afterColon_dotted h.no_dot, hgroup]

theorem groups_succ {room : Nat} {first : Bool} {cs rest : List Char} {found : UInt16}
    (hdot : '.' ∉ cs) (hgroup : afterColon first group cs = some (found, rest)) :
    groups (room + 1) first cs =
      (found :: (groups room false rest).1, (groups room false rest).2) := by
  simp [groups, afterColon_dotted hdot, hgroup]

theorem groups_emitMore {rest : List Char} (h : Closes rest) {found : List UInt16} {room : Nat}
    (hroom : found.length ≤ room) :
    groups room false (emitMore found rest) = (found, false, rest) := by
  induction found generalizing room with
  | nil => exact groups_of_closes h room false
  | cons found more ih =>
    obtain ⟨room, rfl⟩ := Nat.exists_eq_succ_of_ne_zero (Nat.ne_zero_of_lt hroom)
    have hgroup : afterColon false group (emitMore (found :: more) rest) =
        some (found, emitMore more rest) := by
      simpa [afterColon, expect, emitMore] using group_toDigits found (stops_emitMore h more)
    rw [groups_succ (dot_notMem_emitMore h _) hgroup, ih (Nat.le_of_succ_le_succ hroom)]

theorem groups_emitGroups {rest : List Char} (h : Closes rest) {found : List UInt16} {room : Nat}
    (hroom : found.length ≤ room) :
    groups room true (Ipv6.emitGroups found rest) = (found, false, rest) := by
  cases found with
  | nil => exact groups_of_closes h room true
  | cons found more =>
    obtain ⟨room, rfl⟩ := Nat.exists_eq_succ_of_ne_zero (Nat.ne_zero_of_lt hroom)
    have hgroup : afterColon true group (Nat.toDigits 16 found.toNat ++ emitMore more rest) =
        some (found, emitMore more rest) := group_toDigits found (stops_emitMore h more)
    have hdot : '.' ∉ Nat.toDigits 16 found.toNat ++ emitMore more rest := by
      rw [List.mem_append, not_or]
      exact ⟨dot_notMem_toDigits (by decide) (by decide) _, dot_notMem_emitMore h more⟩
    rw [emitGroups_cons, groups_succ hdot hgroup, groups_emitMore h (Nat.le_of_succ_le_succ hroom)]

/-- Zeros stand at all the places of the run. -/
def IsRun (found : List UInt16) (run : Nat × Nat) : Prop :=
  run.1 + run.2 ≤ found.length ∧ (found.drop run.1).take run.2 = List.replicate run.2 0

theorem isRun_zeros (before after : List UInt16) :
    IsRun (before ++ after) (before.length, Ipv6.zeros after) := by
  have htake : after.take (Ipv6.zeros after) = after.takeWhile (· = 0) :=
    (List.prefix_iff_eq_take.1 (List.takeWhile_prefix _)).symm
  refine ⟨?_, ?_⟩
  · have hle : Ipv6.zeros after ≤ after.length := (List.takeWhile_prefix _).length_le
    simpa using hle
  · rw [List.drop_left, htake, List.eq_replicate_iff]
    exact ⟨rfl, fun group hmem => by simpa using List.mem_takeWhile_imp hmem⟩

theorem isRun_longestZeros (before after : List UInt16) {best : Nat × Nat}
    (hbest : IsRun (before ++ after) best) :
    IsRun (before ++ after) (Ipv6.longestZeros before.length best after) := by
  -- The best run so far stands in the whole list, of which `after` is still to be searched.
  induction after generalizing before best with
  | nil => exact hbest
  | cons group after ih =>
    have hnext : IsRun (before ++ group :: after)
        (if best.2 < Ipv6.zeros (group :: after) then
          (before.length, Ipv6.zeros (group :: after)) else best) := by
      split
      · exact isRun_zeros before (group :: after)
      · exact hbest
    have hshift : before ++ group :: after = (before ++ [group]) ++ after := by simp
    rw [hshift] at hnext
    have hrun := ih (before ++ [group]) hnext
    rw [← hshift, List.length_append, List.length_singleton] at hrun
    exact hrun

/-- Zeros put in the place of a run restore it. -/
theorem restore_run {found : List UInt16} {start run : Nat} (h : IsRun found (start, run)) :
    found.take start ++ (List.replicate run 0 ++ found.drop (start + run)) = found := by
  rw [← h.2, ← List.drop_drop, List.take_append_drop, List.take_append_drop]

theorem groups_ofGroups (high low : UInt16) : (Ipv4.ofGroups high low).groups = [high, low] := by
  have hjoin : ∀ group : UInt16,
      UInt16.ofNat (256 * (UInt8.ofNat (group.toNat / 256)).toNat +
        (UInt8.ofNat group.toNat).toNat) = group := by
    intro group
    have hlt : group.toNat < 65536 := group.toNat_lt
    rw [← UInt16.toNat_inj]
    simp only [UInt8.toNat_ofNat', UInt16.toNat_ofNat']
    omega
  rw [Ipv4.groups, Ipv4.ofGroups, hjoin high, hjoin low]

theorem closes_colons {rest : List Char} (h : '.' ∉ rest) : Closes (':' :: ':' :: rest) := by
  have hcolon (cs : List Char) : Stops 16 (':' :: cs) := stops_cons (by decide) cs
  exact ⟨hcolon _, by simp [h], group_of_stops (hcolon rest)⟩

theorem dot_notMem_emitGroups {rest : List Char} (h : Closes rest) (found : List UInt16) :
    '.' ∉ Ipv6.emitGroups found rest := by
  cases found with
  | nil => exact h.no_dot
  | cons found more =>
    rw [emitGroups_cons, List.mem_append, not_or]
    exact ⟨dot_notMem_toDigits (by decide) (by decide) _, dot_notMem_emitMore h more⟩

theorem ipv6_of_groups {address : Ipv6} {cs rest : List Char}
    (h : groups 8 true cs = (address.groups, false, rest)) : ipv6 cs = some (address, rest) := by
  simp [ipv6, h, address.length_groups, ofGroups?]

theorem ipv6_of_colons {address : Ipv6} {head tail : List UInt16} {run : Nat} {dottedTail : Bool}
    {cs middle rest : List Char} (hrun : 0 < run)
    (haddress : head ++ (List.replicate run 0 ++ tail) = address.groups)
    (hhead : groups 8 true cs = (head, false, ':' :: ':' :: middle))
    (htail : groups (7 - head.length) true middle = (tail, dottedTail, rest)) :
    ipv6 cs = some (address, rest) := by
  have hlength : head.length + (run + tail.length) = 8 := by
    rw [← address.length_groups, ← haddress]
    simp
  have hroom : head.length ≠ 8 := by omega
  have hzeros : 8 - head.length - tail.length = run := by omega
  simp [ipv6, hhead, hroom, expect, htail, hzeros, ofGroups?, haddress, hlength]

theorem groups_mapped (high low : UInt16) {rest : List Char} (hrest : Stops 10 rest) :
    groups 7 true ('f' :: 'f' :: 'f' :: 'f' :: ':' :: (Ipv4.ofGroups high low).emit rest) =
      ([0xffff, high, low], true, rest) := by
  have hdotted (cs : List Char) : dotted ('f' :: cs) = none :=
    dotted_of_stops (stops_cons (by decide) cs)
  have hgroup (cs : List Char) : group ('f' :: 'f' :: 'f' :: 'f' :: ':' :: cs) =
      some (0xffff, ':' :: cs) :=
    group_toDigits 0xffff (stops_cons (by decide) cs)
  have htail : groups 6 false (':' :: (Ipv4.ofGroups high low).emit rest) =
      ([high, low], true, rest) := by
    simp [groups, afterColon, expect, dotted_emit _ hrest, groups_ofGroups]
  rw [groups]
  simp [afterColon, hdotted, hgroup, htail]

theorem groups_colons (rest : List Char) :
    groups 8 true (':' :: ':' :: rest) = ([], false, ':' :: ':' :: rest) := by
  have hdotted : dotted (':' :: ':' :: rest) = none := dotted_of_stops (stops_cons (by decide) _)
  have hgroup : group (':' :: ':' :: rest) = none := group_of_stops (stops_cons (by decide) _)
  simp [groups, afterColon, hdotted, hgroup]

theorem ipv6_emit (address : Ipv6) {rest : List Char} (h : Closes rest) :
    ipv6 (address.emit rest) = some (address, rest) := by
  rw [Ipv6.emit]
  split
  · rename_i high low hgroups
    have hhead := groups_colons ('f' :: 'f' :: 'f' :: 'f' :: ':' ::
      (Ipv4.ofGroups high low).emit rest)
    have htail := groups_mapped high low (h.stops.mono (by decide : 10 ≤ 16))
    have hsplit : [] ++ (List.replicate 5 0 ++ [0xffff, high, low]) = address.groups :=
      hgroups.symm
    exact ipv6_of_colons (by decide) hsplit hhead htail
  · have hzero : IsRun address.groups (0, 0) := ⟨Nat.zero_le _, rfl⟩
    have hrun := isRun_longestZeros [] address.groups hzero
    simp only [List.length_nil, List.nil_append] at hrun
    generalize Ipv6.longestZeros 0 (0, 0) address.groups = found at hrun
    obtain ⟨start, run⟩ := found
    dsimp only
    split
    · rename_i hlong
      have hlength := hrun.1.trans_eq address.length_groups
      have hhead : (address.groups.take start).length ≤ 8 := by
        rw [List.length_take, address.length_groups]
        omega
      have htail : (address.groups.drop (start + run)).length ≤
          7 - (address.groups.take start).length := by
        rw [List.length_take, List.length_drop, address.length_groups]
        omega
      have hcolons := closes_colons (dot_notMem_emitGroups h (address.groups.drop (start + run)))
      exact ipv6_of_colons (by omega) (restore_run hrun) (groups_emitGroups hcolons hhead)
        (groups_emitGroups h htail)
    · exact ipv6_of_groups (groups_emitGroups h address.length_groups.le)

theorem port_toDigits (found : UInt16) :
    port (':' :: Nat.toDigits 10 found.toNat) = some (found, []) := by
  have hlt : found.toNat < 65536 := found.toNat_lt
  have hnumber := number_toDigits (by decide) (by decide) hlt (nofun : Stops 10 [])
  rw [List.append_nil] at hnumber
  simp [port, expect, hnumber]

theorem scope_emit (found : UInt32) (rest : List Char) :
    scope ((if found = 0 then [] else '%' :: Nat.toDigits 10 found.toNat) ++ ']' :: rest) =
      (found, ']' :: rest) := by
  split
  · rename_i hzero
    simp [scope, expect, hzero]
  · have hlt : found.toNat < UInt32.size := found.toNat_lt
    have hstops : Stops 10 (']' :: rest) := stops_cons (by decide) rest
    simp [scope, expect, number_toDigits (by decide) (by decide) hlt hstops]

theorem closes_scope (found : UInt32) {rest : List Char} (h : '.' ∉ rest) :
    Closes ((if found = 0 then [] else '%' :: Nat.toDigits 10 found.toNat) ++ ']' :: rest) := by
  have hdigits : '.' ∉ Nat.toDigits 10 found.toNat :=
    dot_notMem_toDigits (by decide) (by decide) _
  split
  · exact ⟨stops_cons (by decide) _, by simp [h], rfl⟩
  · exact ⟨stops_cons (by decide) _, by simp [h, hdigits], rfl⟩

theorem endpoint4_chars (address : Ipv4) (found : UInt16) :
    endpoint4 (Endpoint.v4 address found).chars = some (.v4 address found, []) := by
  have hstops : Stops 10 (':' :: Nat.toDigits 10 found.toNat) := stops_cons (by decide) _
  simp [endpoint4, chars, dotted_emit address hstops, port_toDigits]

theorem endpoint6_chars (address : Ipv6) (zone : UInt32) (found : UInt16) :
    endpoint6 (Endpoint.v6 address zone found).chars = some (.v6 address zone found, []) := by
  have hdot : '.' ∉ ':' :: Nat.toDigits 10 found.toNat := by simp [dot_notMem_toDigits]
  have haddress := ipv6_emit address (closes_scope zone hdot)
  simp only [endpoint6, chars, expect, if_true, Option.bind_eq_bind, Option.bind_some, haddress,
    scope_emit, port_toDigits]
  rfl

end Lightpay.Endpoint.Reader

namespace Lightpay.Endpoint

open Reader

@[simp] theorem parse?_text (endpoint : Endpoint) : parse? endpoint.text = some endpoint := by
  cases endpoint with
  | v4 address port => simp [parse?, text, endpoint4_chars]
  | v6 address scope port =>
    have hbracket : endpoint4 (Endpoint.v6 address scope port).chars = none := by
      rw [endpoint4, chars, dotted_of_stops (stops_cons (by decide) _)]
      rfl
    simp [parse?, text, hbracket, endpoint6_chars]

end Lightpay.Endpoint
