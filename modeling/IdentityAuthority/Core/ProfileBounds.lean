import IdentityAuthority.Core.Profile
import IdentityAuthority.Json.Shape

/-!
# The bounds of profile extensions

Admission and every later tightening run the same walk over the extensions. The walk
carries a depth and a running count of members. Here it is shown to decide five bounds on
the extensions as a whole, each stated without the walk.
-/

namespace IdentityAuthority

open Json

/-- The magnitude of a number that is integral, whichever way it is written. -/
def wholeMagnitude : Number → Option ℕ
  | .integer n => some n.natAbs
  | .float d => if d.integral = true then some (d.digits * 10 ^ d.exponent.toNat) else none

/-- What one value inside extensions may be, whatever contains it. -/
structure NodeBounds (array : ℕ) (node : Value) : Prop where
  elements : node.elements.length ≤ array
  printable : ∀ name ∈ node.names, printable name = true
  secret : ∀ name ∈ node.names, ∀ secret ∈ secretNames,
    normalizedName name ≠ normalizedName secret
  string : ∀ s, node = .string s → Char.ofNat 0 ∉ s.toList
  number : ∀ n k, node = .number n → wholeMagnitude n = some k → k ≤ maxSafeInteger

/-- The bounds of a deployment on extensions. -/
structure Within (limits : ProfileLimits) (value : Value) : Prop where
  members : totalMembers (nodes value) ≤ limits.members
  depth : nesting value ≤ limits.depth
  nodes : Everywhere (NodeBounds limits.array) value
  bytes : compactSize value ≤ limits.bytes

/-- Limits that are nowhere tighter than others. -/
structure ProfileLimits.Looser (limits limits' : ProfileLimits) : Prop where
  bytes : limits.bytes ≤ limits'.bytes
  members : limits.members ≤ limits'.members
  depth : limits.depth ≤ limits'.depth
  array : limits.array ≤ limits'.array

section Nodes

/-- The secret names are written in their normal form. -/
theorem normalizedName_secret {secret : String} (h : secret ∈ secretNames) :
    normalizedName secret = secret.toList := by
  have hall : ∀ secret ∈ secretNames, normalizedName secret = secret.toList := by decide
  exact hall secret h

theorem admissibleName_iff {name : String} :
    admissibleName name = true ↔
      printable name = true ∧
        ∀ secret ∈ secretNames, normalizedName name ≠ normalizedName secret := by
  unfold admissibleName
  rw [Bool.and_eq_true, Bool.not_eq_true', List.contains_eq_mem, decide_eq_false_iff_not,
    List.mem_map]
  refine and_congr_right fun _ => ?_
  constructor
  · intro h secret hsecret heq
    exact h ⟨secret, hsecret, by rw [heq, normalizedName_secret hsecret]⟩
  · rintro h ⟨secret, hsecret, heq⟩
    exact h secret hsecret (by rw [normalizedName_secret hsecret, heq])

theorem admissibleNumber_iff {n : Number} :
    admissibleNumber n = true ↔ ∀ k, wholeMagnitude n = some k → k ≤ maxSafeInteger := by
  cases n with
  | integer n => simp [admissibleNumber, wholeMagnitude]
  | float d =>
    by_cases h : d.integral = true
    · simp [admissibleNumber, wholeMagnitude, h, Decimal.magnitudeExceeds]
    · simp [admissibleNumber, wholeMagnitude, h]

/-- A value without members and elements of its own has its bounds by what it is. -/
theorem nodeBounds_leaf {array : ℕ} {node : Value} (helements : node.elements = [])
    (hnames : node.names = []) :
    NodeBounds array node ↔
      (∀ s, node = .string s → Char.ofNat 0 ∉ s.toList) ∧
        ∀ n k, node = .number n → wholeMagnitude n = some k → k ≤ maxSafeInteger := by
  constructor
  · exact fun h => ⟨h.string, h.number⟩
  · rintro ⟨hstring, hnumber⟩
    exact
      { elements := by simp [helements]
        printable := by simp [hnames]
        secret := by simp [hnames]
        string := hstring
        number := hnumber }

theorem nodeBounds_array {array : ℕ} {values : List Value} :
    NodeBounds array (.array values) ↔ values.length ≤ array := by
  constructor
  · exact fun h => h.elements
  · intro h
    exact
      { elements := h
        printable := by simp [Value.names]
        secret := by simp [Value.names]
        string := by rintro s ⟨⟩
        number := by rintro n k ⟨⟩ }

theorem nodeBounds_object {array : ℕ} {members : List (String × Value)} :
    NodeBounds array (.object members) ↔
      ∀ member ∈ members, admissibleName member.1 = true := by
  constructor
  · intro h member hmember
    have hname : member.1 ∈ (Value.object members).names := List.mem_map_of_mem hmember
    exact admissibleName_iff.mpr ⟨h.printable _ hname, h.secret _ hname⟩
  · intro h
    have hname : ∀ name ∈ (Value.object members).names, admissibleName name = true := by
      intro name hname
      obtain ⟨member, hmember, rfl⟩ := List.mem_map.mp hname
      exact h member hmember
    exact
      { elements := by simp [Value.elements]
        printable := fun name hn => (admissibleName_iff.mp (hname name hn)).1
        secret := fun name hn => (admissibleName_iff.mp (hname name hn)).2
        string := by rintro s ⟨⟩
        number := by rintro n k ⟨⟩ }

/-- A looser bound on arrays keeps every value inside its bounds. -/
theorem NodeBounds.mono {array array' : ℕ} {node : Value} (h : NodeBounds array node)
    (hle : array ≤ array') : NodeBounds array' node :=
  { h with elements := h.elements.trans hle }

end Nodes

section Walk

/-- What a walk over a part of the extensions has found: it met `total` members, brackets
nested `nest` deep, and nothing unsound. -/
structure Walked (limits : ProfileLimits) (depth count n total nest : ℕ) (sound : Prop) : Prop where
  counted : n = count + total
  members : n ≤ limits.members
  depth : depth + nest ≤ limits.depth
  sound : sound

variable {limits : ProfileLimits} {depth count n : ℕ}

/-- A walk over two parts, one after the other. -/
theorem walked_append {total total' nest nest' : ℕ} {sound sound' : Prop} :
    (∃ m, Walked limits depth count m total nest sound ∧
        Walked limits depth m n total' nest' sound') ↔
      Walked limits depth count n (total + total') (max nest nest') (sound ∧ sound') := by
  constructor
  · rintro ⟨m, h, h'⟩
    have hm := h.counted
    have hn := h'.counted
    have hdepth := h.depth
    have hdepth' := h'.depth
    exact ⟨by omega, h'.members, by omega, h.sound, h'.sound⟩
  · intro h
    have hn := h.counted
    have hmembers := h.members
    have hdepth := h.depth
    exact ⟨count + total, ⟨rfl, by omega, by omega, h.sound.1⟩,
      ⟨by omega, by omega, by omega, h.sound.2⟩⟩

/-- A walk over nothing. -/
theorem walked_nil (hdepth : depth ≤ limits.depth) (hcount : count ≤ limits.members)
    {sound : Prop} : Walked limits depth count n 0 0 sound ↔ count = n ∧ sound := by
  constructor
  · intro h
    exact ⟨h.counted.symm, h.sound⟩
  · rintro ⟨rfl, h⟩
    exact ⟨rfl, hcount, hdepth, h⟩

mutual

/-- The walk over a value decides the bounds on it. -/
theorem checkValue_eq_some : ∀ (value : Value) {depth count n : ℕ}, depth ≤ limits.depth →
    count ≤ limits.members →
    (checkValue limits depth count value = some n ↔
      Walked limits depth count n (totalMembers (nodes value)) (nesting value)
        (Everywhere (NodeBounds limits.array) value))
  | .null, depth, count, n, hdepth, hcount => by
    have hleaf : NodeBounds limits.array (.null) := (nodeBounds_leaf rfl rfl).mpr
      ⟨by rintro s ⟨⟩, by rintro n k ⟨⟩⟩
    simp [checkValue, nodes, nesting, Value.names, Everywhere, walked_nil hdepth hcount, hleaf]
  | .bool b, depth, count, n, hdepth, hcount => by
    have hleaf : NodeBounds limits.array (.bool b) := (nodeBounds_leaf rfl rfl).mpr
      ⟨by rintro s ⟨⟩, by rintro n k ⟨⟩⟩
    simp [checkValue, nodes, nesting, Value.names, Everywhere, walked_nil hdepth hcount, hleaf]
  | .string s, depth, count, n, hdepth, hcount => by
    have hleaf : NodeBounds limits.array (.string s) ↔ Char.ofNat 0 ∉ s.toList := by
      rw [nodeBounds_leaf rfl rfl]
      simp
    by_cases h : Char.ofNat 0 ∈ s.toList
    · simp [checkValue, nodes, nesting, Value.names, Everywhere, walked_nil hdepth hcount, hleaf, h]
    · simp [checkValue, nodes, nesting, Value.names, Everywhere, walked_nil hdepth hcount, hleaf, h]
  | .number m, depth, count, n, hdepth, hcount => by
    have hleaf : NodeBounds limits.array (.number m) ↔ admissibleNumber m = true := by
      rw [nodeBounds_leaf rfl rfl, admissibleNumber_iff]
      constructor
      · exact fun hnode k hk => hnode.2 m k rfl hk
      · rintro hm
        refine ⟨by rintro s ⟨⟩, ?_⟩
        rintro n k ⟨⟩ hk
        exact hm k hk
    by_cases h : admissibleNumber m = true
    · simp [checkValue, nodes, nesting, Value.names, Everywhere, walked_nil hdepth hcount, hleaf, h]
    · simp [checkValue, nodes, nesting, Value.names, Everywhere, walked_nil hdepth hcount, hleaf, h]
  | .array values, depth, count, n, hdepth, hcount => by
    simp only [checkValue, nodes, nesting, totalMembers_cons, Everywhere, List.forall_mem_cons,
      nodeBounds_array]
    split
    case isTrue h =>
      constructor
      · intro hnone
        cases hnone
      · intro hw
        have hlength := hw.sound.1
        have hnest := hw.depth
        omega
    case isFalse h =>
      rw [not_or, not_le, not_lt] at h
      rw [checkValues_eq_some values (by omega) hcount]
      constructor
      · intro hw
        have hcounted := hw.counted
        have hnest := hw.depth
        exact ⟨by simpa [Value.names] using hcounted, hw.members, by omega, h.2, hw.sound⟩
      · intro hw
        have hcounted := hw.counted
        have hnest := hw.depth
        exact ⟨by simpa [Value.names] using hcounted, hw.members, by omega, hw.sound.2⟩
  | .object members, depth, count, n, hdepth, hcount => by
    simp only [checkValue, enterObject, nodes, nesting, totalMembers_cons, Everywhere,
      List.forall_mem_cons, nodeBounds_object, Value.names, List.length_map]
    split
    case isTrue h =>
      simp only [Option.bind_eq_bind, Option.bind_some]
      rw [checkMembers_eq_some members h.1 h.2]
      constructor
      · intro hw
        have hcounted := hw.counted
        have hnest := hw.depth
        exact ⟨by omega, hw.members, by omega, hw.sound⟩
      · intro hw
        have hcounted := hw.counted
        have hnest := hw.depth
        exact ⟨by omega, hw.members, by omega, hw.sound⟩
    case isFalse h =>
      constructor
      · intro hnone
        cases hnone
      · intro hw
        have hcounted := hw.counted
        have hmembers := hw.members
        have hnest := hw.depth
        omega

/-- The walk over the elements of an array decides the bounds on them. -/
theorem checkValues_eq_some : ∀ (values : List Value) {depth count n : ℕ},
    depth ≤ limits.depth → count ≤ limits.members →
    (checkValues limits depth count values = some n ↔
      Walked limits depth count n (totalMembers (nodesValues values)) (nestingValues values)
        (∀ node ∈ nodesValues values, NodeBounds limits.array node))
  | [], depth, count, n, hdepth, hcount => by
    simp [checkValues, nodesValues, nestingValues, walked_nil hdepth hcount]
  | value :: rest, depth, count, n, hdepth, hcount => by
    simp only [checkValues, nodesValues, nestingValues, totalMembers_append, List.forall_mem_append,
      Option.bind_eq_bind, Option.bind_eq_some_iff, ← walked_append]
    refine exists_congr fun m => ?_
    rw [checkValue_eq_some value hdepth hcount]
    exact and_congr_right fun hw => checkValues_eq_some rest hdepth hw.members

/-- The walk over the members of an object decides the bounds on them. -/
theorem checkMembers_eq_some : ∀ (members : List (String × Value)) {depth count n : ℕ},
    depth ≤ limits.depth → count ≤ limits.members →
    (checkMembers limits depth count members = some n ↔
      Walked limits depth count n (totalMembers (nodesMembers members)) (nestingMembers members)
        ((∀ member ∈ members, admissibleName member.1 = true) ∧
          ∀ node ∈ nodesMembers members, NodeBounds limits.array node))
  | [], depth, count, n, hdepth, hcount => by
    simp [checkMembers, nodesMembers, nestingMembers, walked_nil hdepth hcount]
  | (name, value) :: rest, depth, count, n, hdepth, hcount => by
    simp only [checkMembers, nodesMembers, nestingMembers, totalMembers_append,
      List.forall_mem_append, List.forall_mem_cons]
    split
    case isTrue hname =>
      have hsound : ((admissibleName name = true ∧
            ∀ member ∈ rest, admissibleName member.1 = true) ∧
          (∀ node ∈ nodes value, NodeBounds limits.array node) ∧
            ∀ node ∈ nodesMembers rest, NodeBounds limits.array node) ↔
          (∀ node ∈ nodes value, NodeBounds limits.array node) ∧
            (∀ member ∈ rest, admissibleName member.1 = true) ∧
              ∀ node ∈ nodesMembers rest, NodeBounds limits.array node := by
        tauto
      simp only [hsound, Option.bind_eq_bind, Option.bind_eq_some_iff, ← walked_append]
      refine exists_congr fun m => ?_
      rw [checkValue_eq_some value hdepth hcount]
      exact and_congr_right fun hw => checkMembers_eq_some rest hdepth hw.members
    case isFalse hname =>
      constructor
      · intro hnone
        cases hnone
      · intro hw
        exact absurd hw.sound.1.1 hname

end

/-- The checks of admission and of a tightening decide the bounds on the extensions. -/
theorem withinLimits_iff {object : List (String × Value)} :
    withinLimits limits object = true ↔ Within limits (.object object) := by
  have hwalk : checkObject limits 1 0 object = checkValue limits 0 0 (.object object) := by
    simp [checkObject, checkValue]
  unfold withinLimits
  rw [Bool.and_eq_true, decide_eq_true_iff, hwalk, Option.isSome_iff_exists]
  have hchecked : ∀ n, checkValue limits 0 0 (.object object) = some n ↔ _ := fun n =>
    checkValue_eq_some (.object object) (Nat.zero_le _) (Nat.zero_le _)
  simp only [hchecked]
  constructor
  · rintro ⟨⟨n, hw⟩, hbytes⟩
    have hcounted := hw.counted
    have hmembers := hw.members
    have hdepth := hw.depth
    exact ⟨by omega, by omega, hw.sound, hbytes⟩
  · intro h
    have hmembers := h.members
    have hdepth := h.depth
    exact ⟨⟨_, rfl, by omega, by omega, h.nodes⟩, h.bytes⟩

end Walk

/-- Looser limits admit all that limits admit. -/
theorem Within.mono {limits limits' : ProfileLimits} {value : Value} (h : Within limits value)
    (hle : limits.Looser limits') : Within limits' value where
  members := h.members.trans hle.members
  depth := h.depth.trans hle.depth
  nodes := h.nodes.imp fun _ hnode => hnode.mono hle.array
  bytes := h.bytes.trans hle.bytes

/-- No limits are looser than the fixed ones. -/
theorem ProfileLimits.looser_standard (limits : ProfileLimits) : limits.Looser .standard where
  bytes := limits.bytes_le.2
  members := limits.members_le.2
  depth := limits.depth_le.2
  array := limits.array_le.2

/-- Extensions are the objects inside the fixed bounds. -/
theorem Extensions.tryFrom_isSome_iff {value : Value} :
    (Extensions.tryFrom value).isSome ↔ value.IsObject ∧ Within .standard value := by
  cases value with
  | object object =>
    have hobject : (Value.object object).IsObject := ⟨object, rfl⟩
    have hiff : withinLimits .standard object = true ↔ Within .standard (.object object) :=
      withinLimits_iff
    by_cases h : withinLimits .standard object = true
    · simpa [Extensions.tryFrom, h, hobject] using hiff.mp h
    · have hw : ¬ Within .standard (.object object) := fun hw => h (hiff.mpr hw)
      simp [Extensions.tryFrom, h, hw]
  | _ => simp [Extensions.tryFrom, Value.IsObject]

theorem Extensions.tryFrom_eq_some {value : Value} {extensions : Extensions}
    (h : Extensions.tryFrom value = some extensions) : value = .object extensions.object := by
  cases value with
  | object object =>
    by_cases hw : withinLimits .standard object = true
    · simp only [Extensions.tryFrom, hw, dif_pos, Option.some.injEq] at h
      rw [← h]
    · simp [Extensions.tryFrom, hw] at h
  | _ => cases h

namespace Profile

variable {profile : Profile} {extensions : Extensions} {limits limits' : ProfileLimits}

/-- Extensions inside the limits stay with the whole profile. -/
theorem applyLimits_of_within (havailable : profile.extensions = .available extensions)
    (h : Within limits (.object extensions.object)) : profile.applyLimits limits = profile := by
  have hwithin : withinLimits limits extensions.object = true := by rwa [withinLimits_iff]
  unfold applyLimits
  rw [havailable]
  dsimp only
  rw [if_pos hwithin]

/-- Extensions outside the limits are withheld as a whole. -/
theorem applyLimits_of_not_within (havailable : profile.extensions = .available extensions)
    (h : ¬ Within limits (.object extensions.object)) :
    profile.applyLimits limits = { profile with extensions := .invalid } := by
  have hwithin : ¬ withinLimits limits extensions.object = true := by rwa [withinLimits_iff]
  unfold applyLimits
  rw [havailable]
  dsimp only
  rw [if_neg hwithin]

/-- A profile without extensions is not concerned. -/
theorem applyLimits_of_unavailable (h : ∀ extensions, profile.extensions ≠ .available extensions) :
    profile.applyLimits limits = profile := by
  unfold applyLimits
  split
  case h_1 extensions heq => exact absurd heq (h extensions)
  case h_2 => rfl

/-- What a tightening makes of a profile: itself, or itself without its extensions. -/
theorem applyLimits_cases (profile : Profile) (limits : ProfileLimits) :
    profile.applyLimits limits = profile ∨
      (∃ extensions, profile.extensions = .available extensions ∧
        ¬ Within limits (.object extensions.object)) ∧
        profile.applyLimits limits = { profile with extensions := .invalid } := by
  by_cases h : ∃ extensions, profile.extensions = .available extensions
  · obtain ⟨extensions, havailable⟩ := h
    by_cases hw : Within limits (.object extensions.object)
    · exact .inl (applyLimits_of_within havailable hw)
    · exact .inr ⟨⟨extensions, havailable, hw⟩, applyLimits_of_not_within havailable hw⟩
  · rw [not_exists] at h
    exact .inl (applyLimits_of_unavailable h)

/-- A profile whose extensions are withheld stays as it is. -/
theorem applyLimits_invalid :
    applyLimits { profile with extensions := .invalid } limits =
      { profile with extensions := .invalid } :=
  applyLimits_of_unavailable (by rintro extensions ⟨⟩)

/-- Two tightenings give one profile in either order. -/
theorem applyLimits_comm (profile : Profile) (limits limits' : ProfileLimits) :
    (profile.applyLimits limits).applyLimits limits' =
      (profile.applyLimits limits').applyLimits limits := by
  rcases profile.applyLimits_cases limits with h | ⟨-, h⟩ <;>
    rcases profile.applyLimits_cases limits' with h' | ⟨-, h'⟩ <;>
    simp only [h, h', applyLimits_invalid]

/-- A tightening made twice is made once. -/
theorem applyLimits_idem (profile : Profile) (limits : ProfileLimits) :
    (profile.applyLimits limits).applyLimits limits = profile.applyLimits limits := by
  rcases profile.applyLimits_cases limits with h | ⟨-, h⟩
  · rw [h, h]
  · rw [h, applyLimits_invalid]

/-- The fixed limits keep every profile, since extensions carry their bounds. -/
theorem applyLimits_standard (profile : Profile) : profile.applyLimits .standard = profile := by
  rcases profile.applyLimits_cases .standard with h | ⟨⟨extensions, -, hw⟩, -⟩
  · exact h
  · have hwithin := extensions.within
    rw [withinLimits_iff] at hwithin
    exact absurd hwithin hw

/-- What limits keep, looser ones keep. -/
theorem applyLimits_mono (hle : limits.Looser limits') (h : profile.applyLimits limits = profile) :
    profile.applyLimits limits' = profile := by
  rcases profile.applyLimits_cases limits' with h' | ⟨⟨extensions, havailable, hw⟩, -⟩
  · exact h'
  · have hnot : ¬ Within limits (.object extensions.object) := fun hin => hw (hin.mono hle)
    rw [applyLimits_of_not_within havailable hnot] at h
    rw [← h] at havailable
    cases havailable

end Profile

/-- Admission and tightening of profile extensions. -/
structure ExtensionLimits : Prop where
  /-- Admission decides the fixed bounds. -/
  accepts : ∀ value, (Extensions.tryFrom value).isSome ↔ value.IsObject ∧ Within .standard value
  /-- What is admitted is kept as it came. -/
  preserves : ∀ value extensions, Extensions.tryFrom value = some extensions →
    value = .object extensions.object
  /-- A tightening decides the bounds of its limits. -/
  keeps : ∀ (profile : Profile) extensions limits, profile.extensions = .available extensions →
    ((profile.applyLimits limits).extensions = .available extensions ↔
      Within limits (.object extensions.object))
  /-- Extensions that are not kept are withheld as a whole. -/
  withholds : ∀ (profile : Profile) extensions limits,
    profile.extensions = .available extensions → ¬ Within limits (.object extensions.object) →
      (profile.applyLimits limits).extensions = .invalid
  /-- A tightening concerns nothing else. -/
  others : ∀ (profile : Profile) limits,
    { profile.applyLimits limits with extensions := profile.extensions } = profile
  /-- Other states of the extensions are not concerned. -/
  unavailable : ∀ (profile : Profile) limits,
    (∀ extensions, profile.extensions ≠ .available extensions) →
      profile.applyLimits limits = profile
  idempotent : ∀ (profile : Profile) limits,
    (profile.applyLimits limits).applyLimits limits = profile.applyLimits limits
  commutes : ∀ (profile : Profile) limits limits',
    (profile.applyLimits limits).applyLimits limits' =
      (profile.applyLimits limits').applyLimits limits
  standard : ∀ profile : Profile, profile.applyLimits .standard = profile
  monotone : ∀ (profile : Profile) limits limits', limits.Looser limits' →
    profile.applyLimits limits = profile → profile.applyLimits limits' = profile

/-- The limits of extensions are exact, idempotent and monotone. -/
theorem extensionLimits : ExtensionLimits where
  accepts _ := Extensions.tryFrom_isSome_iff
  preserves _ _ := Extensions.tryFrom_eq_some
  keeps profile extensions limits havailable := by
    by_cases h : Within limits (.object extensions.object)
    · simp [Profile.applyLimits_of_within havailable h, havailable, h]
    · simp [Profile.applyLimits_of_not_within havailable h, h]
  withholds _ _ _ havailable h := by rw [Profile.applyLimits_of_not_within havailable h]
  others profile limits := by
    rcases profile.applyLimits_cases limits with h | ⟨-, h⟩ <;> rw [h]
  unavailable _ _ := Profile.applyLimits_of_unavailable
  idempotent := Profile.applyLimits_idem
  commutes := Profile.applyLimits_comm
  standard := Profile.applyLimits_standard
  monotone _ _ _ := Profile.applyLimits_mono

end IdentityAuthority
