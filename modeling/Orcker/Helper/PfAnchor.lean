import Orcker.Base.Lines
import Orcker.Base.Numeral

/-!
# The anchors of the packet filter
-/

namespace Orcker.Helper.Pf

open Base

/-- Of the loopback and of the LAN, each with an anchor of its own: a file of rules and two lines in
`/etc/pf.conf` that end in the anchor's marker. -/
inductive Redirect where
  | loopback
  | lan
  deriving DecidableEq

namespace Redirect

def anchorName : Redirect → Str
  | loopback => "dev.orcker"
  | lan => "dev.orcker.lan"

def anchorPath : Redirect → Str
  | loopback => "/etc/pf.anchors/dev.orcker"
  | lan => "/etc/pf.anchors/dev.orcker.lan"

def plistPath : Redirect → Str
  | loopback => "/Library/LaunchDaemons/dev.orcker.pf.plist"
  | lan => "/Library/LaunchDaemons/dev.orcker.lan.pf.plist"

def marker : Redirect → Str
  | loopback => "# orcker-managed"
  | lan => "# orcker-lan-managed"

end Redirect

def pfConfPath : Str := "/etc/pf.conf"

structure Ports where
  httpFrom : UInt16
  httpTo : UInt16
  httpsFrom : UInt16
  httpsTo : UInt16

structure Ipv4Addr where
  octets : UInt8 × UInt8 × UInt8 × UInt8

namespace Ipv4Addr

def isLoopback (ip : Ipv4Addr) : Bool := ip.octets.1 == 127

def isUnspecified (ip : Ipv4Addr) : Bool := ip.octets == (0, 0, 0, 0)

def display (ip : Ipv4Addr) : Str :=
  decimal ip.octets.1.toNat ++ "." ++ decimal ip.octets.2.1.toNat ++ "." ++
    decimal ip.octets.2.2.1.toNat ++ "." ++ decimal ip.octets.2.2.2.toNat

end Ipv4Addr

def portText (port : UInt16) : Str := decimal port.toNat

/-- The rules of the loopback's anchor. -/
def composeAnchorRules (p : Ports) : Str :=
  "rdr pass on lo0 inet proto tcp from any to any port " ++ portText p.httpFrom ++
    " -> 127.0.0.1 port " ++ portText p.httpTo ++ "\n" ++
  "rdr pass on lo0 inet proto tcp from any to any port " ++ portText p.httpsFrom ++
    " -> 127.0.0.1 port " ++ portText p.httpsTo ++ "\n"

/-- Only from private and link-local addresses. -/
def composeLanAnchorRules (lanIp : Ipv4Addr) (p : Ports) : Str :=
  let src : Str := "\x7b 10.0.0.0/8, 172.16.0.0/12, 192.168.0.0/16, 169.254.0.0/16 \x7d"
  "rdr pass inet proto tcp from " ++ src ++ " to " ++ lanIp.display ++ " port " ++
    portText p.httpFrom ++ " -> " ++ lanIp.display ++ " port " ++ portText p.httpTo ++ "\n" ++
  "rdr pass inet proto tcp from " ++ src ++ " to " ++ lanIp.display ++ " port " ++
    portText p.httpsFrom ++ " -> " ++ lanIp.display ++ " port " ++ portText p.httpsTo ++ "\n"

def composeLaunchdaemonPlistLabelled (labelStem : Str) : Str :=
  "<?xml version=\"1.0\" encoding=\"UTF-8\"?>\n" ++
    "<!DOCTYPE plist PUBLIC \"-//Apple//DTD PLIST 1.0//EN\" " ++
    "\"http://www.apple.com/DTDs/PropertyList-1.0.dtd\">\n" ++
    "<plist version=\"1.0\">\n<dict>\n\t<key>Label</key>\n\t<string>" ++ labelStem ++
    ".pf</string>\n\t<key>RunAtLoad</key>\n\t<true/>\n\t<key>ProgramArguments</key>\n\t<array>\n" ++
    "\t\t<string>/sbin/pfctl</string>\n\t\t<string>-E</string>\n\t\t<string>-f</string>\n" ++
    "\t\t<string>" ++ pfConfPath ++ "</string>\n\t</array>\n</dict>\n</plist>\n"

def composeLaunchdaemonPlist (r : Redirect) : Str := composeLaunchdaemonPlistLabelled r.anchorName

def rdrAnchorLineFor (name marker : Str) : Str := "rdr-anchor \"" ++ name ++ "\" " ++ marker

def loadAnchorLineFor (name path marker : Str) : Str :=
  "load anchor \"" ++ name ++ "\" from \"" ++ path ++ "\" " ++ marker

/-- A line carries the marker and the name. -/
def isInstalledFor (pfConf name marker : Str) : Bool :=
  (lines pfConf).any fun l => containsStr l marker && containsStr l ("\"" ++ name ++ "\"")

/-- Anchors of this kind stand in front of the others. -/
def isTranslationAnchor (line : Str) : Bool :=
  let t := line.dropWhile isWhitespace
  "rdr-anchor".toList.isPrefixOf t || "nat-anchor".toList.isPrefixOf t

/-- Behind the last anchor of the translation section, or in front of everything. -/
def insertAt (ls : List Str) : Nat :=
  ((ls.zipIdx.filter fun l => isTranslationAnchor l.1).getLast?.map (·.2 + 1)).getD 0

/-- Both lines, each where `pf` wants it. -/
def insertRefsFor (pfConf name path marker : Str) : Str :=
  if isInstalledFor pfConf name marker then pfConf
  else
    let ls := lines pfConf
    let ls := ls.insertIdx (insertAt ls) (rdrAnchorLineFor name marker)
    joinLines (ls ++ [loadAnchorLineFor name path marker]) ++ "\n"

/-- Without the lines that carry the marker. -/
def removeRefsFor (pfConf marker : Str) : Str :=
  let out := joinLines ((lines pfConf).filter fun l => !containsStr l marker)
  if out.isEmpty then out else out ++ "\n"

def insertAnchorRefs (r : Redirect) (pfConf : Str) : Str :=
  insertRefsFor pfConf r.anchorName r.anchorPath r.marker

def removeAnchorRefs (r : Redirect) (pfConf : Str) : Str := removeRefsFor pfConf r.marker

def rdrAnchorLine (r : Redirect) : Str := rdrAnchorLineFor r.anchorName r.marker

def loadAnchorLine (r : Redirect) : Str := loadAnchorLineFor r.anchorName r.anchorPath r.marker

/-- Some line carries the marker. -/
def Marked (r : Redirect) (text : Str) : Prop := ∃ line ∈ lines text, r.marker <:+: line

theorem marker_ne_nil (r : Redirect) : r.marker ≠ [] := by cases r <;> decide

variable {text : Str}

variable {a b : Redirect}

theorem refs_marker {line : Str} (hline : line = rdrAnchorLine a ∨ line = loadAnchorLine a)
    (h : b.marker <:+: line) : b = a := by
  cases a <;> cases b <;> rcases hline with rfl | rfl
  all_goals first | rfl | exact absurd h (by decide +kernel)

theorem refs_feed (r : Redirect) : '\n' ∉ rdrAnchorLine r ∧ '\n' ∉ loadAnchorLine r := by
  cases r <;> decide +kernel

theorem Marked.of_insertAnchorRefs (h : Marked b (insertAnchorRefs a text)) :
    b = a ∨ Marked b text := by
  unfold insertAnchorRefs insertRefsFor at h
  split at h
  · exact .inr h
  obtain ⟨line, hline, hmarker⟩ := h
  have hmem : ∀ m ∈ ((lines text).insertIdx (insertAt (lines text)) (rdrAnchorLine a)) ++
      [loadAnchorLine a], m ∈ lines text ∨ m = rdrAnchorLine a ∨ m = loadAnchorLine a := by
    intro m hm
    rcases List.mem_append.1 hm with hm | hm
    · exact (List.eq_or_mem_of_mem_insertIdx hm).symm.imp_right .inl
    · exact .inr (.inr (List.mem_singleton.1 hm))
  have hfeed : ∀ m ∈ ((lines text).insertIdx (insertAt (lines text)) (rdrAnchorLine a)) ++
      [loadAnchorLine a], '\n' ∉ m := by
    intro m hm
    rcases hmem m hm with hm | rfl | rfl
    · exact notMem_of_mem_lines hm
    · exact (refs_feed a).1
    · exact (refs_feed a).2
  obtain ⟨m, hm, hpat⟩ := infix_of_mem_lines_joinLines hfeed hline hmarker (marker_ne_nil b)
  rcases hmem m hm with hm | hm
  · exact .inr ⟨m, hm, hpat⟩
  · exact .inl (refs_marker hm hpat)

theorem Marked.of_removeAnchorRefs (h : Marked b (removeAnchorRefs a text)) :
    b ≠ a ∧ Marked b text := by
  obtain ⟨line, hline, hmarker⟩ := h
  simp only [removeAnchorRefs, removeRefsFor] at hline
  split at hline
  · next hempty =>
    rw [List.isEmpty_iff.1 hempty] at hline
    cases hline
  have hfeed : ∀ m ∈ (lines text).filter fun l => !containsStr l a.marker, '\n' ∉ m :=
    fun m hm => notMem_of_mem_lines (List.mem_filter.1 hm).1
  obtain ⟨m, hm, hpat⟩ := infix_of_mem_lines_joinLines hfeed hline hmarker (marker_ne_nil b)
  obtain ⟨hm, hother⟩ := List.mem_filter.1 hm
  refine ⟨?_, m, hm, hpat⟩
  rintro rfl
  simp [containsStr, hpat] at hother

end Orcker.Helper.Pf
