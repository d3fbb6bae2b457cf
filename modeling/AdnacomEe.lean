import AdnacomEe.Basic
import AdnacomEe.BusMap.Table
import AdnacomEe.BusMap.Walk
import AdnacomEe.BusMap.Summary
import AdnacomEe.BusMap.Probe
import AdnacomEe.BusMap.Forest
import AdnacomEe.BusMap.Complete
import AdnacomEe.Eeprom.Port
import AdnacomEe.Eeprom.Load
import AdnacomEe.Eeprom.Controller
import AdnacomEe.Eeprom.Save
import AdnacomEe.Eeprom.Main
import AdnacomEe.Eeprom.Serial
import AdnacomEe.Eeprom.CmdLine
import AdnacomEe.Eeprom.Options
import AdnacomEe.Eeprom.RoundTrip
import AdnacomEe.Config.Fetch
import AdnacomEe.Lspci.Caps
import AdnacomEe.Lspci.Machine
import AdnacomEe.Tree.Registry
import AdnacomEe.Tree.Sort
import AdnacomEe.Tree.Grow
import AdnacomEe.Tree.Buses
import AdnacomEe.Tree.Traverse
import AdnacomEe.Tree.Render
import AdnacomEe.Adna.Show
import AdnacomEe.Adna.Select
