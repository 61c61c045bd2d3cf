import FtyRest.Lib.BigEndian
import FtyRest.Lib.DoWhile
import FtyRest.Lib.PrefixBlock
import FtyRest.Lib.Select
import FtyRest.Lib.History
import FtyRest.Lib.Strtol
import FtyRest.Shared.Cidr
import FtyRest.Shared.CidrList
import FtyRest.Shared.CidrNext
import FtyRest.Shared.CidrSteps
import FtyRest.Shared.Data
import FtyRest.Shared.DataSort
import FtyRest.Shared.DataChildren
import FtyRest.Shared.DataGuards
import FtyRest.Shared.AssetObject
import FtyRest.Shared.StringToInt
import FtyRest.Shared.Bsi32
import FtyRest.Shared.StobiosfExact
import FtyRest.Shared.SanitizeDate
import FtyRest.Shared.Escape
import FtyRest.Shared.UpsStatus
import FtyRest.Shared.CsvRows
import FtyRest.Shared.AugtoolOutput
import FtyRest.Shared.UpdateDescriptionExact
import FtyRest.Shared.TopicCache
import FtyRest.Shared.Join
import FtyRest.Persist.Assetcrud
import FtyRest.Db.AllOrNothing
import FtyRest.Db.Delete
import FtyRest.Db.Inout.ImportCsv
import FtyRest.Db.Inout.RowStatus
import FtyRest.Db.Inout.ExportBack
import FtyRest.Db.Inout.GetPut
import FtyRest.Db.Inout.RackController
import FtyRest.Db.Inout.RowFinds
import FtyRest.Db.Inout.USize
import FtyRest.Db.Inout.SelfLinks
import FtyRest.Db.Inout.CommitOnce
import FtyRest.Web.SseAssets
import FtyRest.Web.SseSilence
import FtyRest.Web.SseAlerts
import FtyRest.Web.FreeUSize
import FtyRest.Web.RackOutlets
import FtyRest.Web.SseParents
import FtyRest.Ecpp.ConfigPost
import FtyRest.Ecpp.NetcfgPut
import FtyRest.Ecpp.NetcfgLegal
import FtyRest.Ecpp.NetcfgOrder
import FtyRest.Ecpp.AlertCounters
import FtyRest.Ecpp.IndicatorsShown
import FtyRest.Ecpp.Uptime
import FtyRest.Shared.Ic
import FtyRest.Persist.LinkTexts
import FtyRest.BiosCsv.Compare
import FtyRest.Ecpp.Topology
import FtyRest.Db.Inout.Managed
import FtyRest.Ecpp.AlertAck
import FtyRest.Ecpp.AlertList
import FtyRest.Ecpp.AlertRules
import FtyRest.Ecpp.AlertRulesList
import FtyRest.Ecpp.Getlog
import FtyRest.Ecpp.GetlogFiles
import FtyRest.Ecpp.License
import FtyRest.Lib.Dispatch
import FtyRest.Lib.EventStream
import FtyRest.Lib.Regex
import FtyRest.Web.Mappings
import FtyRest.Web.Pipeline
import FtyRest.Web.PipelineRuns
import FtyRest.Web.SseSession
