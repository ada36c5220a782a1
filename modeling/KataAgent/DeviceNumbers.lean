import KataAgent.BitFields
import KataAgent.DeviceSubstitution
import KataAgent.RootfsSetup

namespace KataAgent
open Fallible Renumbering BitFields
set_option autoImplicit true

/-- `mknod_dev` with the number of another device. -/
def mknodAs (g : RootfsGuest) (dev : LinuxDevice) (number : UInt64) : Setup Unit :=
  match LINUXDEVICETYPE.lookup dev.type with
  | some f => do
    let path := dev.path.toList.tail
    perform g (.mknod path f (dev.fileMode &&& 0o7777) number)
    perform g (.chown path (UInt32.ofNat dev.uid) (UInt32.ofNat dev.gid))
  | none => .fail (.errorCode "invalid spec")

section
variable {d : UInt64} {ma mi ma' mi' : UInt64}

theorem toNat_major (d : UInt64) :
    (major d).toNat = d.toNat / 2 ^ 8 % 2 ^ 12 + d.toNat / 2 ^ 44 * 2 ^ 12 := by
  have hlow : (0xfff00 : UInt64).toNat = mask 8 12 := by decide
  have hhigh : (0xfffff00000000000 : UInt64).toNat = mask 44 20 := by decide
  have hlt : d.toNat < 2 ^ 64 := d.toNat_lt
  rw [major, UInt64.toNat_toUInt32, UInt64.toNat_or, UInt64.toNat_shiftRight,
    UInt64.toNat_shiftRight, UInt64.toNat_and, UInt64.toNat_and, hlow, hhigh, and_mask, and_mask,
    Nat.shiftRight_eq_div_pow, Nat.shiftRight_eq_div_pow]
  have hpieces : d.toNat / 2 ^ 8 % 2 ^ 12 * 2 ^ 8 / 2 ^ 8 = d.toNat / 2 ^ 8 % 2 ^ 12 ∧
      d.toNat / 2 ^ 44 % 2 ^ 20 * 2 ^ 44 / 2 ^ 32 = d.toNat / 2 ^ 44 * 2 ^ 12 := by omega
  change (d.toNat / 2 ^ 8 % 2 ^ 12 * 2 ^ 8 / 2 ^ 8 |||
    d.toNat / 2 ^ 44 % 2 ^ 20 * 2 ^ 44 / 2 ^ 32) % 2 ^ 32 = _
  rw [hpieces.1, hpieces.2, or_shift (Nat.mod_lt _ (by decide))]
  omega

theorem toNat_minor (d : UInt64) :
    (minor d).toNat = d.toNat % 2 ^ 8 + d.toNat / 2 ^ 20 % 2 ^ 24 * 2 ^ 8 := by
  have hlow : (0xff : UInt64).toNat = mask 0 8 := by decide
  have hhigh : (0xffffff00000 : UInt64).toNat = mask 20 24 := by decide
  rw [minor, UInt64.toNat_toUInt32, UInt64.toNat_or, UInt64.toNat_shiftRight, UInt64.toNat_and,
    UInt64.toNat_and, hlow, hhigh, and_mask, and_mask, Nat.shiftRight_eq_div_pow]
  have hpieces : d.toNat / 2 ^ 0 % 2 ^ 8 * 2 ^ 0 = d.toNat % 2 ^ 8 ∧
      d.toNat / 2 ^ 20 % 2 ^ 24 * 2 ^ 20 / 2 ^ 12 = d.toNat / 2 ^ 20 % 2 ^ 24 * 2 ^ 8 := by omega
  change (d.toNat / 2 ^ 0 % 2 ^ 8 * 2 ^ 0 |||
    d.toNat / 2 ^ 20 % 2 ^ 24 * 2 ^ 20 / 2 ^ 12) % 2 ^ 32 = _
  rw [hpieces.1, hpieces.2, or_shift (Nat.mod_lt _ (by decide))]
  omega

theorem toNat_makedev (hma : ma.toNat < 2 ^ 32) (hmi : mi.toNat < 2 ^ 32) :
    (makedev ma mi).toNat = mi.toNat % 2 ^ 8 + ma.toNat % 2 ^ 12 * 2 ^ 8 +
      mi.toNat / 2 ^ 8 * 2 ^ 20 + ma.toNat / 2 ^ 12 * 2 ^ 44 := by
  have hmasks : (0xff : UInt64).toNat = mask 0 8 ∧ (0xfff : UInt64).toNat = mask 0 12 ∧
      (~~~(0xff : UInt64)).toNat = mask 8 56 ∧ (~~~(0xfff : UInt64)).toNat = mask 12 52 := by decide
  obtain ⟨hff, hfff, hnff, hnfff⟩ := hmasks
  rw [makedev, UInt64.toNat_or, UInt64.toNat_or, UInt64.toNat_or, UInt64.toNat_shiftLeft,
    UInt64.toNat_shiftLeft, UInt64.toNat_shiftLeft, UInt64.toNat_and, UInt64.toNat_and,
    UInt64.toNat_and, UInt64.toNat_and, hff, hfff, hnff, hnfff, and_mask, and_mask, and_mask,
    and_mask, Nat.shiftLeft_eq, Nat.shiftLeft_eq, Nat.shiftLeft_eq]
  have hpieces : mi.toNat / 2 ^ 0 % 2 ^ 8 * 2 ^ 0 = mi.toNat % 2 ^ 8 ∧
      ma.toNat / 2 ^ 0 % 2 ^ 12 * 2 ^ 0 * 2 ^ 8 % 2 ^ 64 = ma.toNat % 2 ^ 12 * 2 ^ 8 ∧
      mi.toNat / 2 ^ 8 % 2 ^ 56 * 2 ^ 8 * 2 ^ 12 % 2 ^ 64 = mi.toNat / 2 ^ 8 * 2 ^ 20 ∧
      ma.toNat / 2 ^ 12 % 2 ^ 52 * 2 ^ 12 * 2 ^ 32 % 2 ^ 64 = ma.toNat / 2 ^ 12 * 2 ^ 44 := by omega
  change mi.toNat / 2 ^ 0 % 2 ^ 8 * 2 ^ 0 |||
    ma.toNat / 2 ^ 0 % 2 ^ 12 * 2 ^ 0 * 2 ^ 8 % 2 ^ 64 |||
    mi.toNat / 2 ^ 8 % 2 ^ 56 * 2 ^ 8 * 2 ^ 12 % 2 ^ 64 |||
    ma.toNat / 2 ^ 12 % 2 ^ 52 * 2 ^ 12 * 2 ^ 32 % 2 ^ 64 = _
  obtain ⟨hmi₁, hma₁, hmi₂, hma₂⟩ := hpieces
  rw [hmi₁, hma₁, hmi₂, hma₂, or_shift (k := 8) (by omega), or_shift (k := 20) (by omega),
    or_shift (k := 44) (by omega)]

theorem major_makedev (hma : ma.toNat < 2 ^ 32) (hmi : mi.toNat < 2 ^ 32) :
    (major (makedev ma mi)).toNat = ma.toNat := by
  rw [toNat_major, toNat_makedev hma hmi]
  omega

theorem minor_makedev (hma : ma.toNat < 2 ^ 32) (hmi : mi.toNat < 2 ^ 32) :
    (minor (makedev ma mi)).toNat = mi.toNat := by
  rw [toNat_minor, toNat_makedev hma hmi]
  omega

theorem makedev_injective (hma : ma.toNat < 2 ^ 32) (hmi : mi.toNat < 2 ^ 32)
    (hma' : ma'.toNat < 2 ^ 32) (hmi' : mi'.toNat < 2 ^ 32)
    (h : makedev ma mi = makedev ma' mi') : ma = ma' ∧ mi = mi' := by
  constructor
  · apply UInt64.toNat_inj.1
    rw [← major_makedev hma hmi, h, major_makedev hma' hmi']
  · apply UInt64.toNat_inj.1
    rw [← minor_makedev hma hmi, h, minor_makedev hma' hmi']

/-- Every device number is made of its major and minor number. -/
theorem makedev_major_minor (d : UInt64) :
    makedev (UInt64.ofInt (devNumber d).1) (UInt64.ofInt (devNumber d).2) = d := by
  have hcast (n : UInt32) : (UInt64.ofInt n.toNat).toNat = n.toNat := by
    have hn := n.toNat_lt
    rw [UInt64.ofInt, UInt64.toNat_ofNat']
    omega
  have hma : (UInt64.ofInt (devNumber d).1).toNat = (major d).toNat := hcast (major d)
  have hmi : (UInt64.ofInt (devNumber d).2).toNat = (minor d).toNat := hcast (minor d)
  have hma' := (major d).toNat_lt
  have hmi' := (minor d).toNat_lt
  apply UInt64.toNat_inj.1
  rw [toNat_makedev (by omega) (by omega), hma, hmi, toNat_major, toNat_minor]
  have := d.toNat_lt
  omega

theorem mknodDev_of_number {dev : LinuxDevice} (h : dev.number = devNumber d) (g : RootfsGuest) :
    mknodDev g dev = mknodAs g dev d := by
  obtain ⟨hmajor, hminor⟩ : dev.major = (devNumber d).1 ∧ dev.minor = (devNumber d).2 :=
    Prod.ext_iff.1 h
  rw [mknodDev, hmajor, hminor, makedev_major_minor]
  rfl

theorem retarget_number {linux : Linux} {path : String} {n : DevNumber} {dev : LinuxDevice}
    (hdev : dev ∈ (linux.retarget path n).devices) (hpath : dev.path = path) : dev.number = n := by
  have hdevices : (linux.retarget path n).devices =
      linux.devices.map (retargetEntry (path, n)) := by
    rw [Linux.retarget, updateDevices_eq (path, n)]
  rw [hdevices] at hdev
  obtain ⟨e, -, rfl⟩ := List.mem_map.1 hdev
  rw [retargetEntry_path] at hpath
  rw [retargetEntry, if_pos hpath, LinuxDevice.number_setNumber]

end

/-- The numbers of a device are found again in what is made of them, and the node in the container
is the device that was found in the guest. -/
theorem makedev_roundTrip :
    (∀ ma mi : UInt64, ma.toNat < 2 ^ 32 → mi.toNat < 2 ^ 32 →
      (major (makedev ma mi)).toNat = ma.toNat ∧ (minor (makedev ma mi)).toNat = mi.toNat) ∧
    (∀ ma mi ma' mi' : UInt64, ma.toNat < 2 ^ 32 → mi.toNat < 2 ^ 32 → ma'.toNat < 2 ^ 32 →
      mi'.toNat < 2 ^ 32 → makedev ma mi = makedev ma' mi' → ma = ma' ∧ mi = mi') ∧
    ∀ g device spec spec', updateSpecDeviceList g device spec = .ok spec' →
      ∃ linux devId, spec'.linux = some linux ∧ g.rdev device.vmPath = .ok devId ∧
        ∀ dev ∈ linux.devices, dev.path = device.containerPath →
          ∀ guest, mknodDev guest dev = mknodAs guest dev devId := by
  refine ⟨fun ma mi hma hmi => ⟨major_makedev hma hmi, minor_makedev hma hmi⟩,
    fun ma mi ma' mi' => makedev_injective, fun g device spec spec' h => ?_⟩
  obtain ⟨linux, devId, -, hdevId, rfl⟩ := updateSpecDeviceList_ok h
  refine ⟨_, devId, rfl, hdevId, fun dev hdev hpath => mknodDev_of_number ?_⟩
  exact retarget_number hdev hpath

theorem makedev_roundTrip_high :
    (major (makedev 0xabcdef01 0x12345678)).toNat = 0xabcdef01 ∧
      (minor (makedev 0xabcdef01 0x12345678)).toNat = 0x12345678 :=
  makedev_roundTrip.1 0xabcdef01 0x12345678 (by decide) (by decide)

end KataAgent
