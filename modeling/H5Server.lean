import H5Server.Codec.Html
import H5Server.Codec.UrlLayers
import H5Server.Http.Connections
import H5Server.Order.Cipher
import H5Server.Order.Query
import H5Server.Order.Withdrawals
import H5Server.Public.IPFinder
import H5Server.Public.Weights
import H5Server.Framework.AndroidUserManager
import H5Server.Qhb.Winner
import H5Server.Ddz.Beats
import H5Server.Ddz.Rounds
import H5Server.Ddz.Settlement
import H5Server.Erqs.BestReading
import H5Server.Erqs.Combination
import H5Server.Erqs.Discards
import H5Server.Erqs.TableShapes
import H5Server.Erqs.TurnRuns
import H5Server.Erqs.Waits
import H5Server.Zjh.ShowdownOrder
import H5Server.Zjh.TurnOrder
import H5Server.Gswz.Betting
import H5Server.Gswz.Ranking
import H5Server.Hjk.Histories
import H5Server.Hjk.Solvency
import H5Server.MatchServer.MatchLedger
import H5Server.MatchServer.MatchRoomManager
import H5Server.Slwh.Redraw
import H5Server.Brnn.Multiples
import H5Server.Bbqznn.AnalyseCard
import H5Server.Bbqznn.BestOfSix
import H5Server.Bbqznn.Phases
import H5Server.Ebg.BankeManager
import H5Server.S13s.Arrangement
import H5Server.S13s.ByScore
import H5Server.S13s.Settlement
