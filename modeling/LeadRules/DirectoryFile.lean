import LeadRules.Directory
import LeadRules.StateFile

/-! Directories kept in a file. -/
namespace LeadRules.Directory

def load (path : FilePath) : Op Host Directory := do
  let v ← Op.ofExcept (StateFile.parse path (← get).files)
  let d ← Op.ofExcept (ofWire v)
  Op.log .info
    s!"Loaded directory: {d.teams.size} teams, {d.users.size} users, {d.phoneLists.size} phone lists"
  return d

end LeadRules.Directory
